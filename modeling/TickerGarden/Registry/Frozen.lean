import TickerGarden.Lib.Transition
import TickerGarden.Registry.LaunchConfigs

/-!
# The registries as a machine

The registries, as one machine: registrations, commits, additions and changes of
status, in any order, while the templates and the identity of the assets may change in
any way. Each registry has its own steps, which leave the others alone.

What a run can never change is `TickerGarden.Registries.Frozen`, and it holds along
every run, `TickerGarden.Registries.frozen_of_run`: the contents of an entry that is set,
and the configuration of a market that is registered. What is true of the assets in
every state is `TickerGarden.Registries.AssetsSound`; in particular no two assets share
a token.
-/

namespace TickerGarden

open Checked Function

/-- One operation of the baseline registry. -/
inductive TickerGardenBaselineRegistry.Step : Registries → Registries → Prop
  | addBaseline {r r' : Registries} (code : CodeView) (baselineId : Bytes32)
      (value : TickerGardenBaseline) (h : addBaseline code r baselineId value = .ok r') : Step r r'
  | pauseBaseline {r r' : Registries} (now : ℕ) (baselineId : Bytes32)
      (h : pauseBaseline now r baselineId = .ok r') : Step r r'
  | unpauseBaseline {r r' : Registries} (now : ℕ) (baselineId : Bytes32)
      (h : unpauseBaseline now r baselineId = .ok r') : Step r r'
  | retireBaseline {r r' : Registries} (baselineId : Bytes32)
      (h : retireBaseline r baselineId = .ok r') : Step r r'

/-- One operation of the quote registry. -/
inductive ApprovedQuoteRegistry.Step (platform : Platform) : Registries → Registries → Prop
  | addQuoteConfig {r r' : Registries} (code : CodeView) (configId : Bytes32)
      (config : QuoteAssetConfig) (h : addQuoteConfig platform code r configId config = .ok r') :
      Step platform r r'
  | addStockQuoteConfig {r r' : Registries} (fingerprint : StockTokenFingerprint)
      (configId : Bytes32) (config : QuoteAssetConfig) (binding : StockQuoteBinding)
      (h : addStockQuoteConfig platform fingerprint r configId config binding = .ok r') :
      Step platform r r'
  | pauseQuote {r r' : Registries} (now : ℕ) (configId : Bytes32)
      (h : pauseQuote now r configId = .ok r') : Step platform r r'
  | unpauseQuote {r r' : Registries} (now : ℕ) (configId : Bytes32)
      (h : unpauseQuote now r configId = .ok r') : Step platform r r'
  | retireQuote {r r' : Registries} (configId : Bytes32) (h : retireQuote r configId = .ok r') :
      Step platform r r'

/-- One operation of the stock registry. -/
inductive OfficialStockRegistry.Step : Registries → Registries → Prop
  | registerAsset {r r' : Registries} (code : CodeView) (identity : Except Revert Unit)
      (assetUid : Bytes32) (stockToken : Address) (tokenDecimals : ℕ) (userStockVault : Address)
      (minimumAllocation : ℕ)
      (h : registerAsset code identity r assetUid stockToken tokenDecimals userStockVault
        minimumAllocation = .ok r') : Step r r'
  | setMinimumAllocation {r r' : Registries} (assetUid : Bytes32) (newMinimum : ℕ)
      (h : setMinimumAllocation r assetUid newMinimum = .ok r') : Step r r'
  | pauseAsset {r r' : Registries} (now : ℕ) (assetUid : Bytes32)
      (h : pauseAsset now r assetUid = .ok r') : Step r r'
  | unpauseAsset {r r' : Registries} (now : ℕ) (assetUid : Bytes32)
      (h : unpauseAsset now r assetUid = .ok r') : Step r r'
  | retireAsset {r r' : Registries} (assetUid : Bytes32) (h : retireAsset r assetUid = .ok r') :
      Step r r'

/-- One operation of the market registry. -/
inductive MarketRegistry.Step (platform : Platform) (bindings : MarketRegistry.Bindings) :
    Registries → Registries → Prop
  | registerMarket {r r' : Registries} (caller : Address) (marketId : Bytes32)
      (config : MarketConfig) (h : registerMarket bindings caller r marketId config = .ok r') :
      Step platform bindings r r'
  | commitPoolCreated {r r' : Registries} {version : ℕ} (caller : Address)
      (marketId poolId : Bytes32)
      (h : commitPoolCreated bindings platform caller r marketId poolId = .ok (r', version)) :
      Step platform bindings r r'

namespace Registries

/-- **One step of the registries**: a successful operation of one of them, or a change
of what they read elsewhere. -/
inductive Step (platform : Platform) (bindings : MarketRegistry.Bindings) :
    Registries → Unit → Registries → Prop
  | market {r r' : Registries} (h : MarketRegistry.Step platform bindings r r') :
      Step platform bindings r () r'
  | stock {r r' : Registries} (h : OfficialStockRegistry.Step r r') : Step platform bindings r () r'
  | quote {r r' : Registries} (h : ApprovedQuoteRegistry.Step platform r r') :
      Step platform bindings r () r'
  | baseline {r r' : Registries} (h : TickerGardenBaselineRegistry.Step r r') :
      Step platform bindings r () r'
  | surroundings (r : Registries) (assetIdentityCurrent quoteIdentityCurrent : Bytes32 → Bool)
      (launchTemplate : Bytes32 → LaunchTemplate) :
      Step platform bindings r ()
        { r with assetIdentityCurrent, quoteIdentityCurrent, launchTemplate }

/-! ### What cannot change -/

/-- The contents of a baseline that is set do not change. -/
def SameBaseline (b b' : TickerGardenBaseline) : Prop :=
  b.status ≠ 0 → b'.status ≠ 0 ∧ b' = { b with status := b'.status }

/-- The contents of a quote configuration that is set do not change. -/
def SameQuote (q q' : QuoteAssetConfig) : Prop :=
  q.status ≠ 0 → q'.status ≠ 0 ∧ q' = { q with status := q'.status }

/-- The contents of an asset that is set do not change. -/
def SameAsset (a a' : AssetView) : Prop :=
  a.status ≠ 0 → a'.status ≠ 0 ∧ a' = { a with status := a'.status }

/-- **What no run changes**: the contents of the entries that are set, and the
configurations of the markets. -/
structure Frozen (r r' : Registries) : Prop where
  asset : ∀ id, SameAsset (r.asset id) (r'.asset id)
  baseline : ∀ id, SameBaseline (r.baseline id) (r'.baseline id)
  quoteConfig : ∀ id, SameQuote (r.quoteConfig id) (r'.quoteConfig id)
  markets : ∀ id view, r.markets id = some view →
    ∃ runtime, r'.markets id = some ⟨view.config, runtime⟩

section Frozen

variable {platform : Platform} {bindings : MarketRegistry.Bindings} {r r' r'' : Registries}

theorem SameBaseline.refl (b : TickerGardenBaseline) : SameBaseline b b := fun h => ⟨h, rfl⟩

theorem SameQuote.refl (q : QuoteAssetConfig) : SameQuote q q := fun h => ⟨h, rfl⟩

theorem SameAsset.refl (a : AssetView) : SameAsset a a := fun h => ⟨h, rfl⟩

theorem Frozen.refl (r : Registries) : Frozen r r :=
  ⟨fun _ => .refl _, fun _ => .refl _, fun _ => .refl _, fun _ view h => ⟨view.runtime, h⟩⟩

theorem Frozen.trans (h : Frozen r r') (k : Frozen r' r'') : Frozen r r'' := by
  refine ⟨fun id hid => ?_, fun id hid => ?_, fun id hid => ?_, fun id view hview => ?_⟩
  · obtain ⟨hset, heq⟩ := h.asset id hid
    obtain ⟨hset', heq'⟩ := k.asset id hset
    exact ⟨hset', by rw [heq', heq]⟩
  · obtain ⟨hset, heq⟩ := h.baseline id hid
    obtain ⟨hset', heq'⟩ := k.baseline id hset
    exact ⟨hset', by rw [heq', heq]⟩
  · obtain ⟨hset, heq⟩ := h.quoteConfig id hid
    obtain ⟨hset', heq'⟩ := k.quoteConfig id hset
    exact ⟨hset', by rw [heq', heq]⟩
  · obtain ⟨runtime, hmid⟩ := h.markets id view hview
    exact k.markets id ⟨view.config, runtime⟩ hmid

/-- An operation of the baseline registry replaces one baseline, which is not set, or of
which only the status changes. -/
theorem of_baselineStep (h : TickerGardenBaselineRegistry.Step r r') :
    ∃ id value pausedAt, SameBaseline (r.baseline id) value ∧
      r' = { r with
        baseline := update r.baseline id value, baselinePausedAt := pausedAt } := by
  cases h with
  | addBaseline code baselineId value h =>
    simp only [TickerGardenBaselineRegistry.addBaseline, bind_eq_ok, revertIf_eq_ok, pure_eq_ok,
      Except.ok.injEq, not_not] at h
    obtain ⟨-, -, -, hunset, -, -, rfl⟩ := h
    exact ⟨baselineId, value, _, fun hset => absurd hunset hset, rfl⟩
  | pauseBaseline now baselineId h =>
    simp only [TickerGardenBaselineRegistry.pauseBaseline, bind_eq_ok, pure_eq_ok,
      Except.ok.injEq] at h
    obtain ⟨l, hl, rfl⟩ := h
    exact ⟨baselineId, _, _, fun _ => ⟨(Lifecycle.live_of_pause hl).after, rfl⟩, rfl⟩
  | unpauseBaseline now baselineId h =>
    simp only [TickerGardenBaselineRegistry.unpauseBaseline, bind_eq_ok, pure_eq_ok,
      Except.ok.injEq] at h
    obtain ⟨l, hl, rfl⟩ := h
    exact ⟨baselineId, _, _, fun _ => ⟨(Lifecycle.live_of_unpause hl).after, rfl⟩, rfl⟩
  | retireBaseline baselineId h =>
    simp only [TickerGardenBaselineRegistry.retireBaseline, bind_eq_ok, pure_eq_ok,
      Except.ok.injEq] at h
    obtain ⟨l, hl, rfl⟩ := h
    exact ⟨baselineId, _, _, fun _ => ⟨(Lifecycle.live_of_retire hl).after, rfl⟩, rfl⟩

/-- A quote configuration that passes the shape check is new. -/
theorem unset_of_shape {id : Bytes32} {config : QuoteAssetConfig} {u : Unit}
    (h : ApprovedQuoteRegistry.validateConfigShape r id config = .ok u) :
    SameQuote (r.quoteConfig id) config := by
  simp only [ApprovedQuoteRegistry.validateConfigShape, bind_eq_ok, revertIf_eq_ok, not_not] at h
  obtain ⟨-, -, hunset⟩ := h
  exact fun hset => absurd hunset hset

/-- An operation of the quote registry replaces one configuration, which is not set, or
of which only the status changes. -/
theorem of_quoteStep (h : ApprovedQuoteRegistry.Step platform r r') :
    ∃ id value pausedAt, SameQuote (r.quoteConfig id) value ∧
      r' = { r with
        quoteConfig := update r.quoteConfig id value, quotePausedAt := pausedAt } := by
  cases h with
  | addQuoteConfig code configId config h =>
    simp only [ApprovedQuoteRegistry.addQuoteConfig, bind_eq_ok, pure_eq_ok, Except.ok.injEq] at h
    obtain ⟨_, hshape, -, -, -, -, rfl⟩ := h
    exact ⟨configId, config, _, unset_of_shape hshape, rfl⟩
  | addStockQuoteConfig fingerprint configId config binding h =>
    simp only [ApprovedQuoteRegistry.addStockQuoteConfig, bind_eq_ok, pure_eq_ok,
      Except.ok.injEq] at h
    obtain ⟨_, hshape, -, -, -, -, -, -, -, -, -, -, -, -, -, -, rfl⟩ := h
    exact ⟨configId, config, _, unset_of_shape hshape, rfl⟩
  | pauseQuote now configId h =>
    simp only [ApprovedQuoteRegistry.pauseQuote, bind_eq_ok, pure_eq_ok, Except.ok.injEq] at h
    obtain ⟨l, hl, rfl⟩ := h
    exact ⟨configId, _, _, fun _ => ⟨(Lifecycle.live_of_pause hl).after, rfl⟩, rfl⟩
  | unpauseQuote now configId h =>
    simp only [ApprovedQuoteRegistry.unpauseQuote, bind_eq_ok, pure_eq_ok, Except.ok.injEq] at h
    obtain ⟨l, hl, rfl⟩ := h
    exact ⟨configId, _, _, fun _ => ⟨(Lifecycle.live_of_unpause hl).after, rfl⟩, rfl⟩
  | retireQuote configId h =>
    simp only [ApprovedQuoteRegistry.retireQuote, bind_eq_ok, pure_eq_ok, Except.ok.injEq] at h
    obtain ⟨l, hl, rfl⟩ := h
    exact ⟨configId, _, _, fun _ => ⟨(Lifecycle.live_of_retire hl).after, rfl⟩, rfl⟩

/-- What an entry of the stock registry looks like, under an identifier. -/
structure AssetSound (id : Bytes32) (a : AssetView) : Prop where
  uid_ne : id ≠ 0
  status_le : a.status ≤ configStatusRetired
  token_ne : a.stockToken ≠ 0
  token_ne_vault : a.stockToken ≠ a.userStockVault
  decimals_ge : 6 ≤ a.tokenDecimals
  decimals_le : a.tokenDecimals ≤ 18

/-- An operation of the stock registry changes at most one asset: it registers a sound
one under a new identifier and for a new token, or it changes the status of one that is
set. -/
theorem of_stockStep (h : OfficialStockRegistry.Step r r') :
    ∃ asset minimums uids pausedAt,
      r' = { r with
        asset, minimumAllocation := minimums, assetUidByStockToken := uids,
        assetPausedAt := pausedAt } ∧
      ((∃ id value, AssetSound id value ∧ (r.asset id).status = 0 ∧
          r.assetUidByStockToken value.stockToken = 0 ∧
          asset = update r.asset id value ∧
          uids = update r.assetUidByStockToken value.stockToken id) ∨
        (uids = r.assetUidByStockToken ∧ asset = r.asset) ∨
        (uids = r.assetUidByStockToken ∧ ∃ id status, (r.asset id).status ≠ 0 ∧ status ≠ 0 ∧
          status ≤ configStatusRetired ∧
          asset = update r.asset id { r.asset id with status })) := by
  cases h with
  | registerAsset code identity assetUid stockToken tokenDecimals userStockVault minimum h =>
    simp only [OfficialStockRegistry.registerAsset, bind_eq_ok, revertIf_eq_ok, pure_eq_ok,
      Except.ok.injEq, not_not, not_or, not_lt] at h
    obtain ⟨-, ⟨huid, htoken, -, hne, -, -, hd6, hd18⟩, -, -, -, hunset, -, huids, -, -, rfl⟩ := h
    exact ⟨_, _, _, _, rfl, Or.inl ⟨assetUid, _,
      ⟨huid, Nat.succ_le_succ (Nat.zero_le 2), htoken, hne, hd6, hd18⟩, hunset, huids, rfl, rfl⟩⟩
  | setMinimumAllocation assetUid newMinimum h =>
    simp only [OfficialStockRegistry.setMinimumAllocation, bind_eq_ok, revertIf_eq_ok, pure_eq_ok,
      Except.ok.injEq] at h
    obtain ⟨-, -, -, -, rfl⟩ := h
    exact ⟨_, _, _, _, rfl, Or.inr (Or.inl ⟨rfl, rfl⟩)⟩
  | pauseAsset now assetUid h =>
    simp only [OfficialStockRegistry.pauseAsset, bind_eq_ok, pure_eq_ok, Except.ok.injEq] at h
    obtain ⟨l, hl, rfl⟩ := h
    have hlive := Lifecycle.live_of_pause hl
    exact ⟨_, _, _, _, rfl, Or.inr (Or.inr ⟨rfl, assetUid, l.status, hlive.before, hlive.after,
      hlive.after_le, rfl⟩)⟩
  | unpauseAsset now assetUid h =>
    simp only [OfficialStockRegistry.unpauseAsset, bind_eq_ok, pure_eq_ok, Except.ok.injEq] at h
    obtain ⟨l, hl, rfl⟩ := h
    have hlive := Lifecycle.live_of_unpause hl
    exact ⟨_, _, _, _, rfl, Or.inr (Or.inr ⟨rfl, assetUid, l.status, hlive.before, hlive.after,
      hlive.after_le, rfl⟩)⟩
  | retireAsset assetUid h =>
    simp only [OfficialStockRegistry.retireAsset, bind_eq_ok, pure_eq_ok, Except.ok.injEq] at h
    obtain ⟨l, hl, rfl⟩ := h
    have hlive := Lifecycle.live_of_retire hl
    exact ⟨_, _, _, _, rfl, Or.inr (Or.inr ⟨rfl, assetUid, l.status, hlive.before, hlive.after,
      hlive.after_le, rfl⟩)⟩

/-- An operation of the market registry replaces the view of one market, which is new and
consistent, or of which only the runtime changes. -/
theorem of_marketStep (h : MarketRegistry.Step platform bindings r r') :
    ∃ id view ids,
      r' = { r with
        markets := update r.markets id (some view), marketIdsByToken := ids } ∧
      ((r.markets id = none ∧ view.runtime.launchPhase = launchPhaseNotGraduated ∧
          MarketRegistry.ConsistentMarket r view.config.toMarketConfig) ∨
        ∃ old, r.markets id = some old ∧ view.config = old.config ∧
          old.runtime.launchPhase = launchPhaseNotGraduated ∧
          view.runtime.launchPhase = launchPhasePoolCreated) := by
  cases h with
  | registerMarket caller marketId config h =>
    obtain ⟨hnone, hcons, view, rfl, hruntime, rfl⟩ := MarketRegistry.registerMarket_eq_ok h
    exact ⟨marketId, view, _, rfl, Or.inl ⟨hnone, by rw [hruntime], hcons⟩⟩
  | commitPoolCreated caller marketId poolId h =>
    obtain ⟨old, hold, hphase, -, -, -, rfl⟩ := MarketRegistry.commitPoolCreated_eq_ok h
    exact ⟨marketId, _, _, rfl, Or.inr ⟨old, hold, rfl, hphase, rfl⟩⟩

/-- **One step freezes what is there.** -/
theorem frozen_of_step {u : Unit} (h : Step platform bindings r u r') : Frozen r r' := by
  cases h with
  | market h =>
    obtain ⟨id, view, ids, rfl, hcase⟩ := of_marketStep h
    refine ⟨fun _ => .refl _, fun _ => .refl _, fun _ => .refl _, fun id' old hold => ?_⟩
    dsimp only
    rcases eq_or_ne id' id with rfl | hne
    · rcases hcase with ⟨hnone, -, -⟩ | ⟨old', hold', hconfig, -, -⟩
      · rw [hnone] at hold
        cases hold
      · rw [hold', Option.some.injEq] at hold
        subst hold
        exact ⟨view.runtime, by rw [update_self, ← hconfig]⟩
    · rw [update_of_ne hne]
      exact ⟨old.runtime, hold⟩
  | stock h =>
    obtain ⟨asset, minimums, uids, pausedAt, rfl, hcase⟩ := of_stockStep h
    refine ⟨fun id' hset => ?_, fun _ => .refl _, fun _ => .refl _,
      fun _ view hview => ⟨view.runtime, hview⟩⟩
    dsimp only
    rcases hcase with ⟨id, value, -, hunset, -, rfl, -⟩ | ⟨-, rfl⟩ | ⟨-, id, status, -, h0, -, rfl⟩
    · rcases eq_or_ne id' id with rfl | hne
      · exact absurd hunset hset
      · rw [update_of_ne hne]
        exact ⟨hset, rfl⟩
    · exact ⟨hset, rfl⟩
    · rcases eq_or_ne id' id with rfl | hne
      · rw [update_self]
        exact ⟨h0, rfl⟩
      · rw [update_of_ne hne]
        exact ⟨hset, rfl⟩
  | quote h =>
    obtain ⟨id, value, pausedAt, hvalue, rfl⟩ := of_quoteStep h
    refine ⟨fun _ => .refl _, fun _ => .refl _, ?_, fun _ view hview => ⟨view.runtime, hview⟩⟩
    exact (Function.forall_update_iff r.quoteConfig fun i q => SameQuote (r.quoteConfig i) q).mpr
      ⟨hvalue, fun _ _ => .refl _⟩
  | baseline h =>
    obtain ⟨id, value, pausedAt, hvalue, rfl⟩ := of_baselineStep h
    refine ⟨fun _ => .refl _, ?_, fun _ => .refl _, fun _ view hview => ⟨view.runtime, hview⟩⟩
    exact (Function.forall_update_iff r.baseline fun i b => SameBaseline (r.baseline i) b).mpr
      ⟨hvalue, fun _ _ => .refl _⟩
  | surroundings assetIdentityCurrent quoteIdentityCurrent launchTemplate =>
    exact ⟨fun _ => .refl _, fun _ => .refl _, fun _ => .refl _,
      fun _ view hview => ⟨view.runtime, hview⟩⟩

/-- **A run freezes what is there.** -/
theorem frozen_of_run {es : List Unit} (h : Transition.Run (Step platform bindings) r es r') :
    Frozen r r' :=
  h.invariant (I := Frozen r) (fun _ _ _ hfrozen hstep => hfrozen.trans (frozen_of_step hstep))
    (Frozen.refl r)

/-! ### What is true in every state -/

/-- **A consistent market stays consistent**: all it was compared with is frozen. -/
theorem consistentMarket_of_frozen {config : MarketConfig} (h : Frozen r r')
    (hc : MarketRegistry.ConsistentMarket r config) : MarketRegistry.ConsistentMarket r' config := by
  obtain ⟨hqset, hq⟩ := h.quoteConfig _ hc.quote_set
  obtain ⟨hbset, hb⟩ := h.baseline _ hc.baseline_set
  have hbase := hc.baseline_ok
  refine ⟨?_, ?_, ?_, hqset, hbset, ?_⟩
  · rw [hq]; exact hc.quote_baseline
  · rw [hq]; exact hc.quote_asset
  · rw [hq]; exact hc.quote_hash
  · rw [hb]; exact hbase

/-- **The assets are sound**: every entry that is set looks as registration left it, and
its token leads back to it. -/
structure AssetsSound (r : Registries) : Prop where
  sound : ∀ id, (r.asset id).status ≠ 0 → AssetSound id (r.asset id)
  token_uid : ∀ id, (r.asset id).status ≠ 0 →
    r.assetUidByStockToken (r.asset id).stockToken = id

/-- No two assets share a token. -/
theorem AssetsSound.token_injective (h : AssetsSound r) {id id' : Bytes32}
    (hid : (r.asset id).status ≠ 0) (hid' : (r.asset id').status ≠ 0)
    (htoken : (r.asset id).stockToken = (r.asset id').stockToken) : id = id' := by
  rw [← h.token_uid id hid, ← h.token_uid id' hid', htoken]

/-- **The assets stay sound.** -/
theorem assetsSound_of_step {u : Unit} (h : Step platform bindings r u r') (hr : AssetsSound r) :
    AssetsSound r' := by
  cases h with
  | stock h =>
    obtain ⟨asset, minimums, uids, pausedAt, rfl, hcase⟩ := of_stockStep h
    rcases hcase with ⟨id, value, hsound, hunset, huids, rfl, rfl⟩ | ⟨rfl, rfl⟩ |
      ⟨rfl, id, status, hset, -, hle, rfl⟩
    · refine ⟨fun id' hid' => ?_, fun id' hid' => ?_⟩ <;> dsimp only at hid' ⊢
      · rcases eq_or_ne id' id with rfl | hne
        · rw [update_self]
          exact hsound
        · rw [update_of_ne hne] at hid' ⊢
          exact hr.sound id' hid'
      · rcases eq_or_ne id' id with rfl | hne
        · rw [update_self, update_self]
        · rw [update_of_ne hne] at hid' ⊢
          -- a token that is registered is not the new one
          have hother : (r.asset id').stockToken ≠ value.stockToken := by
            intro heq
            have := hr.token_uid id' hid'
            rw [heq, huids] at this
            exact (hr.sound id' hid').uid_ne this.symm
          rw [update_of_ne hother]
          exact hr.token_uid id' hid'
    · exact ⟨hr.sound, hr.token_uid⟩
    · refine ⟨fun id' hid' => ?_, fun id' hid' => ?_⟩ <;> dsimp only at hid' ⊢
      · rcases eq_or_ne id' id with rfl | hne
        · rw [update_self]
          have := hr.sound id' hset
          exact ⟨this.uid_ne, hle, this.token_ne, this.token_ne_vault, this.decimals_ge,
            this.decimals_le⟩
        · rw [update_of_ne hne] at hid' ⊢
          exact hr.sound id' hid'
      · rcases eq_or_ne id' id with rfl | hne
        · rw [update_self]
          exact hr.token_uid id' hset
        · rw [update_of_ne hne] at hid' ⊢
          exact hr.token_uid id' hid'
  | market h =>
    obtain ⟨_, _, _, rfl, -⟩ := of_marketStep h
    exact ⟨hr.sound, hr.token_uid⟩
  | quote h =>
    obtain ⟨_, _, _, -, rfl⟩ := of_quoteStep h
    exact ⟨hr.sound, hr.token_uid⟩
  | baseline h =>
    obtain ⟨_, _, _, -, rfl⟩ := of_baselineStep h
    exact ⟨hr.sound, hr.token_uid⟩
  | surroundings assetIdentityCurrent quoteIdentityCurrent launchTemplate =>
    exact ⟨hr.sound, hr.token_uid⟩

/-- **The markets stay consistent.** -/
theorem consistent_of_step {u : Unit} (h : Step platform bindings r u r')
    (hr : MarketRegistry.Consistent r) : MarketRegistry.Consistent r' := by
  have hfrozen := frozen_of_step h
  intro id view hview
  refine consistentMarket_of_frozen hfrozen ?_
  cases h with
  | market h =>
    obtain ⟨id', view', ids, rfl, hcase⟩ := of_marketStep h
    dsimp only at hview
    rcases eq_or_ne id id' with rfl | hne
    · rw [update_self, Option.some.injEq] at hview
      subst hview
      rcases hcase with ⟨-, -, hcons⟩ | ⟨old, hold, hconfig, -, -⟩
      · exact hcons
      · rw [hconfig]
        exact hr id old hold
    · rw [update_of_ne hne] at hview
      exact hr id view hview
  | stock h =>
    obtain ⟨_, _, _, _, rfl, -⟩ := of_stockStep h
    exact hr id view hview
  | quote h =>
    obtain ⟨_, _, _, -, rfl⟩ := of_quoteStep h
    exact hr id view hview
  | baseline h =>
    obtain ⟨_, _, _, -, rfl⟩ := of_baselineStep h
    exact hr id view hview
  | surroundings assetIdentityCurrent quoteIdentityCurrent launchTemplate => exact hr id view hview

end Frozen

end Registries

end TickerGarden
