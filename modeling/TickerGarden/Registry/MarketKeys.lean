import TickerGarden.Registry.Frozen
import TickerGarden.Graduation.Admission

/-!
# The markets on record

What the market registry answers about a market, in every state a run of the registries
reaches from one without markets. A registration checks a configuration against the
quotes, the baselines and the templates of that moment, and these go on changing; so it
is not plain that what is read of the market later – its pool key, its fee source, the
pool that may be committed – is still what was registered.

The part of the checks that is not about a status is kept by every step
(`TickerGarden.Registries.consistent_of_step`), and it is all that
`TickerGarden.MarketRegistry.canonicalPoolKey` reads; so the key is there in every
state, and a later state answers with the same key
(`TickerGarden.Registries.canonicalPoolKey_of_frozen`).

The rest is about the runtime. It is as registration left it, or as the single commit
left it, on the pool of that key and under the second version
(`TickerGarden.Registries.Recorded`); and a committed runtime does not change again
(`TickerGarden.Registries.committed_of_step`). `TickerGarden.Registries.market_records`
puts these together.
-/

namespace TickerGarden

open Checked Function

namespace MarketRegistry

variable {platform : Platform} {bindings : Bindings} {r r' : Registries} {marketId : Bytes32}
  {view : MarketView} {key : PoolKey}

/-- A registration names a market, and a token that has none. -/
theorem unused_of_registerMarket {caller : Address} {config : MarketConfig}
    (h : registerMarket bindings caller r marketId config = .ok r') :
    marketId ≠ 0 ∧ r.marketIdsByToken config.memeToken = 0 := by
  simp only [registerMarket, bind_eq_ok, revertIf_eq_ok, pure_eq_ok, Except.ok.injEq,
    not_not] at h
  obtain ⟨-, -, -, -, -, hne, -, -, -, -, -, -, -, -, -, -, -, -, -, -, -, htoken, -⟩ := h
  exact ⟨hne, htoken⟩

/-- The view of a market that is registered. -/
theorem market_eq_ok (hview : r.markets marketId = some view) : market r marketId = .ok view := by
  rw [market, hview]
  rfl

/-- The identifier of the pool is the hash of its key. -/
theorem canonicalPoolId_eq (hkey : canonicalPoolKey r marketId = .ok key) :
    canonicalPoolId platform r marketId = .ok (platform.keccak256 (.poolKey key)) := by
  rw [canonicalPoolId, hkey]
  rfl

/-- Before graduation the curve credits the fees. -/
theorem activeFeeSource_of_notGraduated (hview : r.markets marketId = some view)
    (hphase : view.runtime.launchPhase = launchPhaseNotGraduated) :
    activeFeeSource r marketId = .ok (view.config.curve, view.runtime.sourceVersion) := by
  rw [activeFeeSource, market_eq_ok hview]
  exact congrArg Except.ok (if_pos hphase)

/-- After graduation the hook credits the fees. -/
theorem activeFeeSource_of_poolCreated (hview : r.markets marketId = some view)
    (hphase : view.runtime.launchPhase = launchPhasePoolCreated) :
    activeFeeSource r marketId
      = .ok (view.config.graduatedHook, view.runtime.sourceVersion) := by
  have hgraduated : view.runtime.launchPhase ≠ launchPhaseNotGraduated := by
    rw [hphase]
    decide
  rw [activeFeeSource, market_eq_ok hview]
  exact congrArg Except.ok ((if_neg hgraduated).trans (if_pos hphase))

/-- **Who can commit which pool**: the executor, once, and only the pool of the key. -/
theorem commitPoolCreated_isOk_iff (hview : r.markets marketId = some view)
    (hkey : canonicalPoolKey r marketId = .ok key)
    (hversion : view.runtime.sourceVersion < maxUint32) {caller : Address} {poolId : Bytes32} :
    (∃ u, commitPoolCreated bindings platform caller r marketId poolId = .ok u) ↔
      caller = bindings.graduationExecutor ∧
        view.runtime.launchPhase = launchPhaseNotGraduated ∧ poolId ≠ 0 ∧
        poolId = platform.keccak256 (.poolKey key) := by
  simp only [commitPoolCreated, market_eq_ok hview, canonicalPoolId_eq hkey, bind_eq_ok,
    revertIf_eq_ok, incr_eq_ok, pure_eq_ok, Except.ok.injEq, not_or, not_not, exists_eq_left']
  constructor
  · rintro ⟨-, -, hcaller, -, hphase, -, hid, -⟩
    exact ⟨hcaller, hphase, hid⟩
  · rintro ⟨hcaller, hphase, hid⟩
    exact ⟨_, (), hcaller, (), hphase, (), hid, _, ⟨hversion, rfl⟩, rfl⟩

end MarketRegistry

namespace Registries

open MarketRegistry

variable {platform : Platform} {bindings : Bindings} {r₀ r r' : Registries} {id : Bytes32}
  {view : MarketView} {key : PoolKey} {u : Unit}

/-! ### The key of a market does not change -/

/-- **The canonical key is the same at a later state**: the configuration is frozen, and so
is the baseline it names. -/
theorem canonicalPoolKey_of_frozen (h : Frozen r r') (hview : r.markets id = some view)
    (hcons : ConsistentMarket r view.config.toMarketConfig)
    (hkey : canonicalPoolKey r id = .ok key) : canonicalPoolKey r' id = .ok key := by
  obtain ⟨runtime, hlater⟩ := h.markets id view hview
  obtain ⟨-, hbaseline⟩ := h.baseline _ hcons.baseline_set
  have hvalid := hcons.baseline_ok
  rw [canonicalPoolKey, market_eq_ok hview] at hkey
  simp only [bind_eq_ok, pure_eq_ok, Except.ok.injEq, exists_eq_left'] at hkey
  rw [canonicalPoolKey, market_eq_ok hlater]
  simp only [bind_eq_ok, pure_eq_ok, Except.ok.injEq, exists_eq_left']
  rw [hbaseline]
  exact hkey

/-! ### The runtime of a market -/

/-- **What is recorded of a market**: an identifier that its token leads back to, and a
runtime that is as registration left it, or as the commit of its own pool did. -/
structure Recorded (platform : Platform) (r : Registries) (id : Bytes32) (view : MarketView) :
    Prop where
  id_ne : id ≠ 0
  token_id : r.marketIdsByToken view.config.memeToken = id
  runtime : view.runtime = ⟨0, 1, launchPhaseNotGraduated⟩ ∨
    ∃ poolId, canonicalPoolId platform r id = .ok poolId ∧
      view.runtime = ⟨poolId, 2, launchPhasePoolCreated⟩

/-- What is recorded of a market is still true when the registries have gone on without
touching its entry or the identifier of its token. -/
theorem Recorded.of_frozen (hrec : Recorded platform r id view) (h : Frozen r r')
    (hview : r.markets id = some view) (hcons : ConsistentMarket r view.config.toMarketConfig)
    (htoken : r'.marketIdsByToken view.config.memeToken = r.marketIdsByToken view.config.memeToken) :
    Recorded platform r' id view := by
  refine ⟨hrec.id_ne, htoken.trans hrec.token_id, hrec.runtime.imp_right ?_⟩
  rintro ⟨poolId, hid, hruntime⟩
  obtain ⟨key, hkey⟩ := canonicalPoolKey_of_consistent hview hcons
  refine ⟨poolId, ?_, hruntime⟩
  rw [canonicalPoolId_eq hkey] at hid
  rw [canonicalPoolId_eq (canonicalPoolKey_of_frozen h hview hcons hkey), hid]

/-- **The markets stay as recorded.** -/
theorem recorded_of_step (h : Step platform bindings r u r') (hcons : Consistent r)
    (hr : ∀ id view, r.markets id = some view → Recorded platform r id view) :
    ∀ id view, r'.markets id = some view → Recorded platform r' id view := by
  have hfrozen := frozen_of_step h
  intro id view hview
  cases h with
  | market h =>
    cases h with
    | registerMarket caller marketId config h =>
      obtain ⟨hid, htoken⟩ := unused_of_registerMarket h
      obtain ⟨-, -, new, rfl, hruntime, rfl⟩ := registerMarket_eq_ok h
      dsimp only at hview
      rcases eq_or_ne id marketId with rfl | hne
      · rw [update_self, Option.some.injEq] at hview
        subst hview
        exact ⟨hid, update_self .., Or.inl hruntime⟩
      · rw [update_of_ne hne] at hview
        have hold := hr id view hview
        -- the new token leads to no market, and this one leads to `id`
        have hother : view.config.memeToken ≠ new.config.memeToken := by
          intro heq
          refine hold.id_ne ?_
          rw [← hold.token_id, heq, htoken]
        exact hold.of_frozen hfrozen hview (hcons id view hview) (update_of_ne hother ..)
    | commitPoolCreated caller marketId poolId h =>
      obtain ⟨old, hold, hphase, -, hcanonical, hversion, rfl⟩ := commitPoolCreated_eq_ok h
      dsimp only at hview
      rcases eq_or_ne id marketId with rfl | hne
      · rw [update_self, Option.some.injEq] at hview
        subst hview
        have hbefore := hr id old hold
        obtain ⟨key, hkey⟩ := canonicalPoolKey_of_consistent hold (hcons id old hold)
        have hlater := canonicalPoolKey_of_frozen hfrozen hold (hcons id old hold) hkey
        refine ⟨hbefore.id_ne, hbefore.token_id, Or.inr ⟨poolId, ?_, ?_⟩⟩
        · rw [canonicalPoolId_eq hkey] at hcanonical
          rw [canonicalPoolId_eq hlater, hcanonical]
        · rcases hbefore.runtime with hruntime | ⟨_, -, hruntime⟩
          · rw [hversion, hruntime]
          · rw [hruntime] at hphase
            exact absurd hphase Nat.one_ne_zero
      · rw [update_of_ne hne] at hview
        exact (hr id view hview).of_frozen hfrozen hview (hcons id view hview) rfl
  | stock h =>
    obtain ⟨_, _, _, _, rfl, -⟩ := of_stockStep h
    exact (hr id view hview).of_frozen hfrozen hview (hcons id view hview) rfl
  | quote h =>
    obtain ⟨_, _, _, -, rfl⟩ := of_quoteStep h
    exact (hr id view hview).of_frozen hfrozen hview (hcons id view hview) rfl
  | baseline h =>
    obtain ⟨_, _, _, -, rfl⟩ := of_baselineStep h
    exact (hr id view hview).of_frozen hfrozen hview (hcons id view hview) rfl
  | surroundings assetIdentityCurrent quoteIdentityCurrent launchTemplate =>
    exact (hr id view hview).of_frozen hfrozen hview (hcons id view hview) rfl

/-- **A market whose pool is committed does not change.** -/
theorem committed_of_step (h : Step platform bindings r u r')
    (hphase : view.runtime.launchPhase = launchPhasePoolCreated)
    (hview : r.markets id = some view) : r'.markets id = some view := by
  cases h with
  | market h =>
    obtain ⟨id', new, ids, rfl, hcase⟩ := of_marketStep h
    dsimp only
    rcases eq_or_ne id id' with rfl | hne
    · rcases hcase with ⟨hnone, -⟩ | ⟨old, hold, -, hopen, -⟩
      · rw [hview] at hnone
        cases hnone
      · rw [hview, Option.some.injEq] at hold
        rw [← hold, hphase] at hopen
        exact absurd hopen (by decide)
    · rw [update_of_ne hne]
      exact hview
  | stock h =>
    obtain ⟨_, _, _, _, rfl, -⟩ := of_stockStep h
    exact hview
  | quote h =>
    obtain ⟨_, _, _, -, rfl⟩ := of_quoteStep h
    exact hview
  | baseline h =>
    obtain ⟨_, _, _, -, rfl⟩ := of_baselineStep h
    exact hview
  | surroundings assetIdentityCurrent quoteIdentityCurrent launchTemplate => exact hview

/-- The markets of a run from registries without any are consistent and as recorded. -/
theorem recorded_of_run {es : List Unit} (h : Transition.Run (Step platform bindings) r₀ es r)
    (h₀ : ∀ id, r₀.markets id = none) :
    Consistent r ∧ ∀ id view, r.markets id = some view → Recorded platform r id view := by
  refine h.invariant (I := fun r => Consistent r ∧
    ∀ id view, r.markets id = some view → Recorded platform r id view) ?_ ⟨?_, ?_⟩
  · rintro r u r' ⟨hcons, hr⟩ hstep
    exact ⟨consistent_of_step hstep hcons, recorded_of_step hstep hcons hr⟩
  · intro id view hview
    rw [h₀ id] at hview
    cases hview
  · intro id view hview
    rw [h₀ id] at hview
    cases hview

/-! ### The market, now and later -/

/-- **A market on record**, at a state `r` and at a later one `r'`: a pool key that is valid
and does not change; the one account that credits its fees, by the phase; the one commit
that can still succeed; no second market of its token; and a later view that differs at
most by that commit. -/
structure MarketRecord (platform : Platform) (bindings : Bindings) (r r' : Registries)
    (id : Bytes32) (view : MarketView) (key : PoolKey) : Prop where
  key_eq : canonicalPoolKey r id = .ok key
  valid : PoolMath.ValidKey key view.config.quoteAsset view.config.memeToken
  source : (view.runtime = ⟨0, 1, launchPhaseNotGraduated⟩ ∧
      activeFeeSource r id = .ok (view.config.curve, 1)) ∨
    (view.runtime = ⟨platform.keccak256 (.poolKey key), 2, launchPhasePoolCreated⟩ ∧
      activeFeeSource r id = .ok (view.config.graduatedHook, 2))
  commit : ∀ caller poolId,
    (∃ u, commitPoolCreated bindings platform caller r id poolId = .ok u) ↔
      caller = bindings.graduationExecutor ∧
        view.runtime.launchPhase = launchPhaseNotGraduated ∧ poolId ≠ 0 ∧
        poolId = platform.keccak256 (.poolKey key)
  unique : ∀ id' view', r.markets id' = some view' →
    view'.config.memeToken = view.config.memeToken → id' = id
  later_key : canonicalPoolKey r' id = .ok key
  later : r'.markets id = some view ∨
    (view.runtime.launchPhase = launchPhaseNotGraduated ∧ r'.markets id = some ⟨view.config,
      ⟨platform.keccak256 (.poolKey key), 2, launchPhasePoolCreated⟩⟩)

/-- **The markets on record.** Along any run of the registries from a state without markets,
every market that is registered is on record, and stays so. -/
theorem market_records {es es' : List Unit} (h₀ : ∀ id, r₀.markets id = none)
    (hrun : Transition.Run (Step platform bindings) r₀ es r)
    (hlater : Transition.Run (Step platform bindings) r es' r')
    (hview : r.markets id = some view) :
    ∃ key, MarketRecord platform bindings r r' id view key := by
  obtain ⟨hcons, hrecorded⟩ := recorded_of_run hrun h₀
  obtain ⟨-, hrecorded'⟩ := recorded_of_run (hrun.append hlater) h₀
  have hfrozen := frozen_of_run hlater
  have hrec := hrecorded id view hview
  obtain ⟨key, hkey⟩ := canonicalPoolKey_of_consistent hview (hcons id view hview)
  have hkey' := canonicalPoolKey_of_frozen hfrozen hview (hcons id view hview) hkey
  have hid : canonicalPoolId platform r id = _ := canonicalPoolId_eq hkey
  have hid' : canonicalPoolId platform r' id = _ := canonicalPoolId_eq hkey'
  refine ⟨key, hkey, (validKey_of_canonicalPoolKey hkey hview).1, ?_,
    fun caller poolId => commitPoolCreated_isOk_iff hview hkey ?_, fun id' view' hview' htoken => ?_,
    hkey', ?_⟩
  · rcases hrec.runtime with hruntime | ⟨poolId, hpool, hruntime⟩
    · refine Or.inl ⟨hruntime, ?_⟩
      rw [activeFeeSource_of_notGraduated hview (by rw [hruntime]), hruntime]
    · rw [hid, Except.ok.injEq] at hpool
      rw [← hpool] at hruntime
      refine Or.inr ⟨hruntime, ?_⟩
      rw [activeFeeSource_of_poolCreated hview (by rw [hruntime]), hruntime]
  · have hversion : view.runtime.sourceVersion ≤ 2 := by
      rcases hrec.runtime with hruntime | ⟨_, -, hruntime⟩
      · rw [hruntime]
        exact Nat.le_succ 1
      · rw [hruntime]
    exact hversion.trans_lt (by decide)
  · rw [← (hrecorded id' view' hview').token_id, htoken, hrec.token_id]
  · rcases hrec.runtime with hruntime | ⟨_, -, hruntime⟩
    · -- it was open: the later runtime is the same, or the commit's
      obtain ⟨runtime, hview'⟩ := hfrozen.markets id view hview
      rcases (hrecorded' id _ hview').runtime with hopen | ⟨poolId, hpool, hdone⟩
      · refine Or.inl (hview'.trans ?_)
        rw [← hruntime] at hopen
        exact congrArg (fun runtime => some (MarketView.mk view.config runtime)) hopen
      · rw [hid', Except.ok.injEq] at hpool
        rw [← hpool] at hdone
        exact Or.inr ⟨by rw [hruntime], hview'.trans
          (congrArg (fun runtime => some (MarketView.mk view.config runtime)) hdone)⟩
    · refine Or.inl (hlater.invariant (I := fun r => r.markets id = some view) ?_ hview)
      exact fun _ _ _ hold hstep => committed_of_step hstep (by rw [hruntime]) hold

/-! ### The small market, committed -/

namespace Sample

open Graduation.Sample (launched registration_isOk)

/-- The key of the pool of the small market. -/
def poolKey : PoolKey := ⟨0, 5, 0, 1, 0x2044⟩

/-- Its pool is committed. -/
def commit : Except Revert (Registries × ℕ) :=
  commitPoolCreated Graduation.Sample.bindings DocumentedV4.platform 9 launched 1
    (DocumentedV4.platform.keccak256 (.poolKey poolKey))

/-- The registries after it. -/
def committed : Registries := (value commit (by decide +kernel)).1

/-- The market, as registered. -/
def opened : MarketView := (launched.markets 1).get (by decide +kernel)

theorem launched_run : Transition.Run
    (Step DocumentedV4.platform Graduation.Sample.bindings) Graduation.Sample.before [()] launched :=
  .single (.market (.registerMarket 20 1 _ (eq_ok_value registration_isOk)))

theorem commit_run : Transition.Run
    (Step DocumentedV4.platform Graduation.Sample.bindings) launched [()] committed :=
  .single (.market (.commitPoolCreated 9 1 _ (eq_ok_value _)))

end Sample

/-- The small market is on record before its pool is committed, and after it. -/
theorem market_records_sample : ∃ key, MarketRecord DocumentedV4.platform
    Graduation.Sample.bindings Graduation.Sample.launched Sample.committed 1 Sample.opened key :=
  market_records (fun _ => rfl) Sample.launched_run Sample.commit_run (Option.some_get _).symm

end Registries

end TickerGarden
