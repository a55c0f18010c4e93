import TickerGarden.Lib.Transition
import TickerGarden.Registry.Identities

/-!
# What can become of an entry

The stock registry, the quote registry and the template registry as one machine, in which any
of their functions may be called at any time, and, beside it, a machine with a single entry
that knows the six things that can happen to it, `TickerGarden.Entry.Moves`. Every entry of the
registries follows the small machine, step by step: this is
`TickerGarden.RegistryStorage.entryRun`, and what is proved of an entry is proved there.

| move           | from             | to      | what else                                       |
|----------------|------------------|---------|-------------------------------------------------|
| `register`     | unset            | active  | contents                                        |
| `pause`        | active           | paused  | the time is remembered                          |
| `unpause`      | paused           | active  | not before a day has passed                     |
| `retire`       | active or paused | retired | –                                               |
| `setMinimum`   | set              | same    | the minimum allocation of a stock               |
| `accept`       | paused           | same    | the implementation of a stock with a beacon     |
-/

namespace TickerGarden

open Checked

/-! ### The machine of one entry -/

/-- What an entry says, beside its status, which is zero here. -/
inductive Contents
  | stock (value : AssetView) (fingerprint : StockTokenFingerprint) (minimumAllocation : ℕ)
  | quote (config : QuoteAssetConfig) (binding : StockQuoteBinding) (runtimeCodeHash : Bytes32)
  | template (value : ComponentTemplate) (hash : Bytes32)

/-- An entry of a registry. -/
structure Entry where
  lifecycle : Lifecycle
  contents : Contents

/-- The minimum allocation of a stock is not below the floor. -/
def Contents.Floor : Contents → Prop
  | .stock _ _ minimumAllocation =>
    OfficialStockRegistry.minimumSafeAllocationRaw ≤ minimumAllocation
  | _ => True

/-- **The contents are the same**, but for the minimum allocation of a stock and, if it has a
beacon, its implementation. -/
def Contents.Same : Contents → Contents → Prop
  | .stock value fingerprint _, .stock value' fingerprint' _ =>
    value' = value ∧ fingerprint' = { fingerprint with
      implementation := fingerprint'.implementation
      implementationRuntimeCodeHash := fingerprint'.implementationRuntimeCodeHash } ∧
    (fingerprint.beacon = 0 → fingerprint' = fingerprint)
  | c, c' => c' = c

/-- What is done to an entry. -/
inductive EntryAction
  | register
  | pause (now : ℕ)
  | unpause (now : ℕ)
  | retire
  | setMinimum
  | accept

/-- **What can happen to an entry.** -/
inductive Entry.Moves : EntryAction → Entry → Entry → Prop
  | register {x x' : Entry} (hunset : x.lifecycle.status = 0)
      (hactive : x'.lifecycle.status = configStatusActive) (hfloor : x'.contents.Floor) :
      Moves .register x x'
  | pause {x : Entry} (now : ℕ) (hactive : x.lifecycle.status = configStatusActive) :
      Moves (.pause now) x { x with lifecycle := ⟨configStatusPaused, now⟩ }
  | unpause {x : Entry} (now : ℕ) (hpaused : x.lifecycle.status = configStatusPaused)
      (hready : x.lifecycle.pausedAt + DelayedUnpause.unpauseStateDelay ≤ now) :
      Moves (.unpause now) x { x with lifecycle := ⟨configStatusActive, 0⟩ }
  | retire {x : Entry}
      (hlive : x.lifecycle.status = configStatusActive ∨ x.lifecycle.status = configStatusPaused) :
      Moves .retire x { x with lifecycle := ⟨configStatusRetired, 0⟩ }
  | setMinimum {lifecycle : Lifecycle} {value : AssetView} {fingerprint : StockTokenFingerprint}
      {minimum newMinimum : ℕ} (hset : lifecycle.status ≠ 0)
      (hfloor : OfficialStockRegistry.minimumSafeAllocationRaw ≤ newMinimum) :
      Moves .setMinimum ⟨lifecycle, .stock value fingerprint minimum⟩
        ⟨lifecycle, .stock value fingerprint newMinimum⟩
  | accept {lifecycle : Lifecycle} {value : AssetView} {fingerprint : StockTokenFingerprint}
      {minimum : ℕ} (implementation : Address) (implementationRuntimeCodeHash : Bytes32)
      (hpaused : lifecycle.status = configStatusPaused) (hbeacon : fingerprint.beacon ≠ 0) :
      Moves .accept ⟨lifecycle, .stock value fingerprint minimum⟩
        ⟨lifecycle, .stock value
          { fingerprint with implementation, implementationRuntimeCodeHash } minimum⟩

/-- The three registries. -/
inductive RegistryKind
  | stock
  | quote
  | template
deriving DecidableEq

/-- What has happened, to which entry. -/
structure RegistryLabel where
  kind : RegistryKind
  id : Bytes32
  action : EntryAction

/-- **One step of an entry**: something happens to it, or to another one. -/
inductive Entry.Step (kind : RegistryKind) (id : Bytes32) : Entry → RegistryLabel → Entry → Prop
  | moves {x x' : Entry} {action : EntryAction} (h : x.Moves action x') :
      Step kind id x ⟨kind, id, action⟩ x'
  | other {x : Entry} {label : RegistryLabel} (h : label.kind = kind → label.id ≠ id) :
      Step kind id x label x

section Entry

variable {kind : RegistryKind} {id : Bytes32} {x y z : Entry} {label : RegistryLabel}
  {history : List RegistryLabel} {action : EntryAction}

theorem Contents.Same.refl (c : Contents) : c.Same c := by
  cases c with
  | stock value fingerprint minimum => exact ⟨rfl, rfl, fun _ => rfl⟩
  | quote config binding hash => rfl
  | template value hash => rfl

theorem Contents.Same.trans {c c' c'' : Contents} (h : c.Same c') (h' : c'.Same c'') :
    c.Same c'' := by
  rcases c with ⟨value, fingerprint, minimum⟩ | _ | _
  · rcases c' with ⟨value', fingerprint', minimum'⟩ | _ | _
    · rcases c'' with ⟨value'', fingerprint'', minimum''⟩ | _ | _
      · obtain ⟨rfl, hfingerprint, hdirect⟩ := h
        obtain ⟨rfl, hfingerprint', hdirect'⟩ := h'
        refine ⟨rfl, ?_, fun hbeacon => ?_⟩
        · rw [hfingerprint', hfingerprint]
        · obtain rfl := hdirect hbeacon
          exact hdirect' hbeacon
      · cases h'
      · cases h'
    · cases h
    · cases h
  · obtain rfl : c' = _ := h
    exact h'
  · obtain rfl : c' = _ := h
    exact h'

/-- **What a move leaves alone**: an entry that is set stays set, with the same contents, and is
not registered. -/
theorem Entry.Moves.same (h : x.Moves action y) (hset : x.lifecycle.status ≠ 0) :
    action ≠ .register ∧ y.lifecycle.status ≠ 0 ∧ x.contents.Same y.contents := by
  cases h with
  | register hunset hactive hfloor => exact absurd hunset hset
  | pause now hactive => exact ⟨nofun, (by decide : configStatusPaused ≠ 0), .refl _⟩
  | unpause now hpaused hready => exact ⟨nofun, (by decide : configStatusActive ≠ 0), .refl _⟩
  | retire hlive => exact ⟨nofun, (by decide : configStatusRetired ≠ 0), .refl _⟩
  | setMinimum hset' hfloor => exact ⟨nofun, hset', rfl, rfl, fun _ => rfl⟩
  | accept implementation hash hpaused hbeacon =>
    exact ⟨nofun, hset, rfl, rfl, fun hdirect => absurd hdirect hbeacon⟩

/-- **Retirement is final.** -/
theorem Entry.Moves.retired (h : x.Moves action y)
    (hretired : x.lifecycle.status = configStatusRetired) :
    y.lifecycle.status = configStatusRetired := by
  cases h with
  | register hunset hactive hfloor => exact absurd (hretired.symm.trans hunset) (by decide)
  | pause now hactive => exact absurd (hretired.symm.trans hactive) (by decide)
  | unpause now hpaused hready => exact absurd (hretired.symm.trans hpaused) (by decide)
  | retire hlive => rfl
  | setMinimum hset hfloor => exact hretired
  | accept implementation hash hpaused hbeacon => exact hretired

/-- The minimum allocation does not fall below the floor. -/
theorem Entry.Moves.floor (h : x.Moves action y)
    (hfloor : x.lifecycle.status ≠ 0 → x.contents.Floor) :
    y.lifecycle.status ≠ 0 → y.contents.Floor := by
  intro hset
  cases h with
  | register hunset hactive hfloor' => exact hfloor'
  | pause now hactive => exact hfloor (by rw [hactive]; decide)
  | unpause now hpaused hready => exact hfloor (by rw [hpaused]; decide)
  | retire hlive => exact hfloor (by rcases hlive with h | h <;> rw [h] <;> decide)
  | setMinimum hset' hfloor' => exact hfloor'
  | accept implementation hash hpaused hbeacon => exact hfloor hset

/-- The fingerprint of a stock. -/
def Contents.fingerprint : Contents → Option StockTokenFingerprint
  | .stock _ fingerprint _ => some fingerprint
  | _ => none

/-- **An implementation is only accepted while the stock is paused.** -/
theorem Entry.Moves.fingerprint (h : x.Moves action y) (hset : x.lifecycle.status ≠ 0)
    (hne : y.contents.fingerprint ≠ x.contents.fingerprint) :
    x.lifecycle.status = configStatusPaused ∧ y.lifecycle.status = configStatusPaused := by
  cases h with
  | register hunset hactive hfloor => exact absurd hunset hset
  | pause now hactive => exact absurd rfl hne
  | unpause now hpaused hready => exact absurd rfl hne
  | retire hlive => exact absurd rfl hne
  | setMinimum hset' hfloor => exact absurd rfl hne
  | accept implementation hash hpaused hbeacon => exact ⟨hpaused, hpaused⟩

/-- **An entry becomes active again** only by `unpause`, and not before a day has passed. -/
theorem Entry.Moves.unpaused (h : x.Moves action y)
    (hpaused : x.lifecycle.status = configStatusPaused)
    (hactive : y.lifecycle.status = configStatusActive) :
    ∃ now, action = .unpause now ∧
      x.lifecycle.pausedAt + DelayedUnpause.unpauseStateDelay ≤ now := by
  cases h with
  | register hunset hactive' hfloor => exact absurd (hpaused.symm.trans hunset) (by decide)
  | pause now hactive' => exact absurd (hpaused.symm.trans hactive') (by decide)
  | unpause now hpaused' hready => exact ⟨now, rfl, hready⟩
  | retire hlive => exact absurd hactive (by decide : configStatusRetired ≠ configStatusActive)
  | setMinimum hset hfloor => exact absurd (hpaused.symm.trans hactive) (by decide)
  | accept implementation hash hpaused' hbeacon =>
    exact absurd (hpaused.symm.trans hactive) (by decide)

/-- **What the entry remembers of the history**: if it is paused, when it was paused last. -/
def Entry.Remembers (kind : RegistryKind) (id : Bytes32) (history : List RegistryLabel)
    (x : Entry) : Prop :=
  x.lifecycle.status = configStatusPaused → ∃ before after,
    history = before ++ ⟨kind, id, .pause x.lifecycle.pausedAt⟩ :: after ∧
      ∀ now, ⟨kind, id, .pause now⟩ ∉ after

/-- A step that leaves the status and the time alone, and is no pause. -/
theorem Entry.Remembers.snoc (h : x.Remembers kind id history) (hlifecycle : y.lifecycle = x.lifecycle)
    (hlabel : ∀ now, label ≠ ⟨kind, id, .pause now⟩) : y.Remembers kind id (history ++ [label]) := by
  intro hpaused
  rw [hlifecycle] at hpaused ⊢
  obtain ⟨before, after, hsplit, hafter⟩ := h hpaused
  refine ⟨before, after ++ [label], ?_, fun now hmem => ?_⟩
  · rw [hsplit, List.append_assoc, List.cons_append]
  · rcases List.mem_append.mp hmem with hmem | hmem
    · exact hafter now hmem
    · exact hlabel now (List.mem_singleton.mp hmem).symm

theorem Entry.Remembers.step (h : x.Remembers kind id history) (hstep : x.Step kind id label y) :
    y.Remembers kind id (history ++ [label]) := by
  cases hstep with
  | other hother =>
    refine h.snoc rfl fun now heq => ?_
    rw [heq] at hother
    exact hother rfl rfl
  | moves hmoves =>
    cases hmoves with
    | register hunset hactive hfloor =>
      intro hpaused
      exact absurd (hactive.symm.trans hpaused) (by decide)
    | pause now hactive => exact fun _ => ⟨history, [], rfl, fun _ => List.not_mem_nil⟩
    | unpause now hpaused hready =>
      exact fun heq => absurd heq (by decide : configStatusActive ≠ configStatusPaused)
    | retire hlive =>
      exact fun heq => absurd heq (by decide : configStatusRetired ≠ configStatusPaused)
    | setMinimum hset hfloor => exact h.snoc rfl fun now heq => (by cases heq)
    | accept implementation hash hpaused hbeacon => exact h.snoc rfl fun now heq => (by cases heq)

theorem Entry.Step.fingerprint (h : x.Step kind id label y) (hset : x.lifecycle.status ≠ 0)
    (hne : y.contents.fingerprint ≠ x.contents.fingerprint) :
    x.lifecycle.status = configStatusPaused ∧ y.lifecycle.status = configStatusPaused := by
  cases h with
  | moves hmoves => exact hmoves.fingerprint hset hne
  | other hother => exact absurd rfl hne

theorem Entry.Step.unpaused (h : x.Step kind id label y)
    (hpaused : x.lifecycle.status = configStatusPaused)
    (hactive : y.lifecycle.status = configStatusActive) :
    ∃ now, label = ⟨kind, id, .unpause now⟩ ∧
      x.lifecycle.pausedAt + DelayedUnpause.unpauseStateDelay ≤ now := by
  cases h with
  | moves hmoves =>
    obtain ⟨now, rfl, hready⟩ := hmoves.unpaused hpaused hactive
    exact ⟨now, rfl, hready⟩
  | other hother => exact absurd (hpaused.symm.trans hactive) (by decide)

end Entry

/-! ### The registries follow it -/

namespace Lifecycle

variable {invalid : ℕ → ℕ → Revert} {l l' : Lifecycle} {now : ℕ}

theorem of_pause (h : pause invalid l now = .ok l') :
    l.status = configStatusActive ∧ l' = ⟨configStatusPaused, now⟩ := by
  simp only [pause, DelayedUnpause.recordPause, bind_eq_ok, revertIf_eq_ok, pure_eq_ok,
    Except.ok.injEq, not_not] at h
  obtain ⟨-, hactive, _, ⟨-, -, rfl⟩, rfl⟩ := h
  exact ⟨hactive, rfl⟩

theorem of_unpause {objectId : Bytes32} {identity : Except Revert Unit}
    (h : unpause invalid l objectId now identity = .ok l') :
    l.status = configStatusPaused ∧ l.pausedAt + DelayedUnpause.unpauseStateDelay ≤ now ∧
      l' = ⟨configStatusActive, 0⟩ := by
  simp only [unpause, DelayedUnpause.requireUnpauseReady, bind_eq_ok, revertIf_eq_ok, pure_eq_ok,
    Except.ok.injEq, not_not, not_lt] at h
  obtain ⟨-, hpaused, -, ⟨-, -, hready⟩, -, -, rfl⟩ := h
  exact ⟨hpaused, hready, rfl⟩

theorem of_retire (h : retire invalid l = .ok l') :
    (l.status = configStatusActive ∨ l.status = configStatusPaused) ∧
      l' = ⟨configStatusRetired, 0⟩ := by
  simp only [retire, bind_eq_ok, revertIf_eq_ok, pure_eq_ok, Except.ok.injEq, not_and_or,
    not_not] at h
  obtain ⟨-, hlive, rfl⟩ := h
  exact ⟨hlive, rfl⟩

end Lifecycle

namespace RegistryStorage

variable {platform : Platform} {self : Address} {views : StockViews} {s s' : RegistryStorage}
  {kind : RegistryKind} {id : Bytes32} {label : RegistryLabel} {action : EntryAction}
  {history : List RegistryLabel}

/-- An entry of the storage. -/
def entry (s : RegistryStorage) : RegistryKind → Bytes32 → Entry
  | .stock, id => ⟨OfficialStockRegistry.lifecycle s.toRegistries id,
      .stock { s.asset id with status := 0 } (s.assetFingerprints id) (s.minimumAllocation id)⟩
  | .quote, id => ⟨ApprovedQuoteRegistry.lifecycle s.toRegistries id,
      .quote { s.quoteConfig id with status := 0 } (s.stockQuoteBindings id)
        (s.quoteRuntimeCodeHashes id)⟩
  | .template, id => ⟨LaunchTemplateRegistry.lifecycle s.templates id,
      .template { s.templates.launchTemplates id with status := 0 }
        (s.templates.launchTemplateHashes id)⟩

/-- **One step of the registries**: a function of one of them, at any time. -/
inductive Step (platform : Platform) (self : Address) :
    RegistryStorage → RegistryLabel → RegistryStorage → Prop
  | registerAsset {s s' : RegistryStorage} (views : StockViews) (assetUid : Bytes32)
      (stockToken : Address) (tokenDecimals : ℕ) (userStockVault : Address) (minimumAllocation : ℕ)
      (expectedFingerprint : StockTokenFingerprint)
      (h : registerAsset platform self views s assetUid stockToken tokenDecimals userStockVault
        minimumAllocation expectedFingerprint = .ok s') :
      Step platform self s ⟨.stock, assetUid, .register⟩ s'
  | acceptAssetImplementation {s s' : RegistryStorage} (views : StockViews) (assetUid : Bytes32)
      (implementation : Address) (implementationRuntimeCodeHash : Bytes32)
      (h : acceptAssetImplementation views s assetUid implementation implementationRuntimeCodeHash
        = .ok s') :
      Step platform self s ⟨.stock, assetUid, .accept⟩ s'
  | setMinimumAllocation {s s' : RegistryStorage} (assetUid : Bytes32) (newMinimum : ℕ)
      (h : setMinimumAllocation s assetUid newMinimum = .ok s') :
      Step platform self s ⟨.stock, assetUid, .setMinimum⟩ s'
  | pauseAsset {s s' : RegistryStorage} (now : ℕ) (assetUid : Bytes32)
      (h : pauseAsset s now assetUid = .ok s') :
      Step platform self s ⟨.stock, assetUid, .pause now⟩ s'
  | unpauseAsset {s s' : RegistryStorage} (views : StockViews) (now : ℕ) (assetUid : Bytes32)
      (h : unpauseAsset self views s now assetUid = .ok s') :
      Step platform self s ⟨.stock, assetUid, .unpause now⟩ s'
  | retireAsset {s s' : RegistryStorage} (assetUid : Bytes32)
      (h : retireAsset s assetUid = .ok s') :
      Step platform self s ⟨.stock, assetUid, .retire⟩ s'
  | addQuoteConfig {s s' : RegistryStorage} (views : StockViews) (configId : Bytes32)
      (config : QuoteAssetConfig) (h : addQuoteConfig platform views s configId config = .ok s') :
      Step platform self s ⟨.quote, configId, .register⟩ s'
  | addStockQuoteConfig {s s' : RegistryStorage} (views : StockViews) (configId : Bytes32)
      (config : QuoteAssetConfig) (binding : StockQuoteBinding)
      (h : addStockQuoteConfig platform self views s configId config binding = .ok s') :
      Step platform self s ⟨.quote, configId, .register⟩ s'
  | pauseQuote {s s' : RegistryStorage} (now : ℕ) (configId : Bytes32)
      (h : pauseQuote s now configId = .ok s') :
      Step platform self s ⟨.quote, configId, .pause now⟩ s'
  | unpauseQuote {s s' : RegistryStorage} (views : StockViews) (now : ℕ) (configId : Bytes32)
      (h : unpauseQuote platform self views s now configId = .ok s') :
      Step platform self s ⟨.quote, configId, .unpause now⟩ s'
  | retireQuote {s s' : RegistryStorage} (configId : Bytes32)
      (h : retireQuote s configId = .ok s') :
      Step platform self s ⟨.quote, configId, .retire⟩ s'
  | addLaunchTemplate {s s' : RegistryStorage} (views : StockViews)
      (components : LaunchTemplateRegistry.ComponentViews) (launchTemplateId : Bytes32)
      (value : ComponentTemplate)
      (h : addLaunchTemplate platform views s components launchTemplateId value = .ok s') :
      Step platform self s ⟨.template, launchTemplateId, .register⟩ s'
  | pauseLaunchTemplate {s s' : RegistryStorage} (now : ℕ) (launchTemplateId : Bytes32)
      (h : pauseLaunchTemplate s now launchTemplateId = .ok s') :
      Step platform self s ⟨.template, launchTemplateId, .pause now⟩ s'
  | unpauseLaunchTemplate {s s' : RegistryStorage} (now : ℕ) (launchTemplateId : Bytes32)
      (h : unpauseLaunchTemplate s now launchTemplateId = .ok s') :
      Step platform self s ⟨.template, launchTemplateId, .unpause now⟩ s'
  | retireLaunchTemplate {s s' : RegistryStorage} (launchTemplateId : Bytes32)
      (h : retireLaunchTemplate s launchTemplateId = .ok s') :
      Step platform self s ⟨.template, launchTemplateId, .retire⟩ s'

/-- One entry moves and the others stay. -/
structure Moved (s : RegistryStorage) (kind : RegistryKind) (id : Bytes32) (action : EntryAction)
    (s' : RegistryStorage) : Prop where
  moves : (s.entry kind id).Moves action (s'.entry kind id)
  other : ∀ kind' id', (kind = kind' → id ≠ id') → s'.entry kind' id' = s.entry kind' id'

theorem Moved.step (h : Moved s kind id action s') (kind' : RegistryKind) (id' : Bytes32) :
    (s.entry kind' id').Step kind' id' ⟨kind, id, action⟩ (s'.entry kind' id') := by
  by_cases hsame : kind = kind' ∧ id = id'
  · obtain ⟨rfl, rfl⟩ := hsame
    exact .moves h.moves
  · have hother : kind = kind' → id ≠ id' := fun hkind hid => hsame ⟨hkind, hid⟩
    rw [h.other kind' id' hother]
    exact .other hother

/-! #### The stock registry -/

/-- The lifecycle of a stock is replaced. -/
theorem moved_stock_lifecycle {l : Lifecycle} {r : Registries}
    (hr : ∃ current, r = { s.toRegistries with assetIdentityCurrent := current })
    (hmoves : (s.entry .stock id).Moves action { s.entry .stock id with lifecycle := l }) :
    Moved s .stock id action
      { s with toRegistries := OfficialStockRegistry.withLifecycle r id l } := by
  obtain ⟨current, rfl⟩ := hr
  refine ⟨?_, ?_⟩
  · convert hmoves using 1
    simp [entry, OfficialStockRegistry.lifecycle, OfficialStockRegistry.withLifecycle]
  · rintro (_ | _ | _) id' hne
    · have hne' : id' ≠ id := (hne rfl).symm
      simp [entry, OfficialStockRegistry.lifecycle, OfficialStockRegistry.withLifecycle, hne']
    · rfl
    · rfl

theorem moved_pauseAsset {now : ℕ} (h : pauseAsset s now id = .ok s') :
    Moved s .stock id (.pause now) s' := by
  simp only [pauseAsset, lift, OfficialStockRegistry.pauseAsset, bind_eq_ok, pure_eq_ok,
    Except.ok.injEq] at h
  obtain ⟨_, ⟨l, hl, rfl⟩, rfl⟩ := h
  obtain ⟨hactive, rfl⟩ := Lifecycle.of_pause hl
  exact moved_stock_lifecycle ⟨_, rfl⟩ (.pause now hactive)

theorem moved_unpauseAsset {now : ℕ} (h : unpauseAsset self views s now id = .ok s') :
    Moved s .stock id (.unpause now) s' := by
  simp only [unpauseAsset, lift, OfficialStockRegistry.unpauseAsset, bind_eq_ok, pure_eq_ok,
    Except.ok.injEq] at h
  obtain ⟨_, ⟨l, hl, rfl⟩, rfl⟩ := h
  obtain ⟨hpaused, hready, rfl⟩ := Lifecycle.of_unpause hl
  exact moved_stock_lifecycle ⟨_, rfl⟩ (.unpause now hpaused hready)

theorem moved_retireAsset (h : retireAsset s id = .ok s') : Moved s .stock id .retire s' := by
  simp only [retireAsset, lift, OfficialStockRegistry.retireAsset, bind_eq_ok, pure_eq_ok,
    Except.ok.injEq] at h
  obtain ⟨_, ⟨l, hl, rfl⟩, rfl⟩ := h
  obtain ⟨hlive, rfl⟩ := Lifecycle.of_retire hl
  exact moved_stock_lifecycle ⟨_, rfl⟩ (.retire hlive)

theorem moved_registerAsset {stockToken userStockVault : Address} {tokenDecimals minimum : ℕ}
    {fingerprint : StockTokenFingerprint}
    (h : registerAsset platform self views s id stockToken tokenDecimals userStockVault minimum
      fingerprint = .ok s') : Moved s .stock id .register s' := by
  simp only [registerAsset, OfficialStockRegistry.registerAsset, bind_eq_ok, revertIf_eq_ok,
    pure_eq_ok, Except.ok.injEq, not_not, not_lt] at h
  obtain ⟨_, ⟨-, -, -, hfloor, -, hunset, -, -, -, -, rfl⟩, admitted, -, rfl⟩ := h
  refine ⟨.register hunset ?_ ?_, ?_⟩
  · simp [entry, OfficialStockRegistry.lifecycle]
  · simpa [entry, Contents.Floor] using hfloor
  · rintro (_ | _ | _) id' hne
    · have hne' : id' ≠ id := (hne rfl).symm
      simp [entry, OfficialStockRegistry.lifecycle, hne']
    · rfl
    · rfl

theorem moved_setMinimumAllocation {newMinimum : ℕ}
    (h : setMinimumAllocation s id newMinimum = .ok s') : Moved s .stock id .setMinimum s' := by
  simp only [setMinimumAllocation, lift, OfficialStockRegistry.setMinimumAllocation, bind_eq_ok,
    revertIf_eq_ok, pure_eq_ok, Except.ok.injEq, not_lt] at h
  obtain ⟨_, ⟨-, hset, -, hfloor, rfl⟩, rfl⟩ := h
  refine ⟨?_, ?_⟩
  · simp only [entry, Function.update_self]
    exact .setMinimum hset hfloor
  · rintro (_ | _ | _) id' hne
    · have hne' : id' ≠ id := (hne rfl).symm
      simp [entry, OfficialStockRegistry.lifecycle, hne']
    · rfl
    · rfl

theorem moved_acceptAssetImplementation {implementation : Address} {hash : Bytes32}
    (h : acceptAssetImplementation views s id implementation hash = .ok s') :
    Moved s .stock id .accept s' := by
  simp only [acceptAssetImplementation, bind_eq_ok, revertIf_eq_ok, pure_eq_ok, Except.ok.injEq,
    not_not] at h
  obtain ⟨-, hpaused, -, hbeacon, -, -, -, -, _, -, rfl⟩ := h
  refine ⟨?_, ?_⟩
  · simp only [entry, Function.update_self]
    exact .accept implementation hash hpaused hbeacon
  · rintro (_ | _ | _) id' hne
    · have hne' : id' ≠ id := (hne rfl).symm
      simp [entry, OfficialStockRegistry.lifecycle, hne']
    · rfl
    · rfl

/-! #### The quote registry -/

/-- The lifecycle of a quote configuration is replaced. -/
theorem moved_quote_lifecycle {l : Lifecycle} {r : Registries}
    (hr : ∃ current, r = { s.toRegistries with quoteIdentityCurrent := current })
    (hmoves : (s.entry .quote id).Moves action { s.entry .quote id with lifecycle := l }) :
    Moved s .quote id action
      { s with toRegistries := ApprovedQuoteRegistry.withLifecycle r id l } := by
  obtain ⟨current, rfl⟩ := hr
  refine ⟨?_, ?_⟩
  · convert hmoves using 1
    simp [entry, ApprovedQuoteRegistry.lifecycle, ApprovedQuoteRegistry.withLifecycle]
  · rintro (_ | _ | _) id' hne
    · rfl
    · have hne' : id' ≠ id := (hne rfl).symm
      simp [entry, ApprovedQuoteRegistry.lifecycle, ApprovedQuoteRegistry.withLifecycle, hne']
    · rfl

theorem moved_pauseQuote {now : ℕ} (h : pauseQuote s now id = .ok s') :
    Moved s .quote id (.pause now) s' := by
  simp only [pauseQuote, lift, ApprovedQuoteRegistry.pauseQuote, bind_eq_ok, pure_eq_ok,
    Except.ok.injEq] at h
  obtain ⟨_, ⟨l, hl, rfl⟩, rfl⟩ := h
  obtain ⟨hactive, rfl⟩ := Lifecycle.of_pause hl
  exact moved_quote_lifecycle ⟨_, rfl⟩ (.pause now hactive)

theorem moved_unpauseQuote {now : ℕ} (h : unpauseQuote platform self views s now id = .ok s') :
    Moved s .quote id (.unpause now) s' := by
  simp only [unpauseQuote, lift, ApprovedQuoteRegistry.unpauseQuote, bind_eq_ok, pure_eq_ok,
    Except.ok.injEq] at h
  obtain ⟨_, ⟨l, hl, rfl⟩, rfl⟩ := h
  obtain ⟨hpaused, hready, rfl⟩ := Lifecycle.of_unpause hl
  exact moved_quote_lifecycle ⟨_, rfl⟩ (.unpause now hpaused hready)

theorem moved_retireQuote (h : retireQuote s id = .ok s') : Moved s .quote id .retire s' := by
  simp only [retireQuote, lift, ApprovedQuoteRegistry.retireQuote, bind_eq_ok, pure_eq_ok,
    Except.ok.injEq] at h
  obtain ⟨_, ⟨l, hl, rfl⟩, rfl⟩ := h
  obtain ⟨hlive, rfl⟩ := Lifecycle.of_retire hl
  exact moved_quote_lifecycle ⟨_, rfl⟩ (.retire hlive)

/-- A configuration that has the right shape is new, and active. -/
theorem of_validateConfigShape {r : Registries} {config : QuoteAssetConfig} {u : Unit}
    (h : ApprovedQuoteRegistry.validateConfigShape r id config = .ok u) :
    (r.quoteConfig id).status = 0 ∧ config.status = configStatusActive := by
  simp only [ApprovedQuoteRegistry.validateConfigShape, bind_eq_ok, revertIf_eq_ok, not_or,
    not_not] at h
  obtain ⟨-, ⟨-, -, hactive, -⟩, hunset⟩ := h
  exact ⟨hunset, hactive⟩

/-- A quote configuration is stored. -/
theorem moved_storeQuoteConfig {r : Registries} {config : QuoteAssetConfig}
    {bindings : Bytes32 → StockQuoteBinding} {hash : Bytes32} {u : Unit}
    (hr : ∃ current, r = { s.toRegistries with assetIdentityCurrent := current })
    (hshape : ApprovedQuoteRegistry.validateConfigShape r id config = .ok u)
    (hbindings : ∀ id', id' ≠ id → bindings id' = s.stockQuoteBindings id') :
    Moved s .quote id .register { s with
      toRegistries := ApprovedQuoteRegistry.storeQuoteConfig r id config
      stockQuoteBindings := bindings
      quoteRuntimeCodeHashes := Function.update s.quoteRuntimeCodeHashes id hash } := by
  obtain ⟨current, rfl⟩ := hr
  obtain ⟨hunset, hactive⟩ := of_validateConfigShape hshape
  refine ⟨.register hunset ?_ trivial, ?_⟩
  · simpa [entry, ApprovedQuoteRegistry.lifecycle, ApprovedQuoteRegistry.storeQuoteConfig]
      using hactive
  · rintro (_ | _ | _) id' hne
    · rfl
    · have hne' : id' ≠ id := (hne rfl).symm
      simp [entry, ApprovedQuoteRegistry.lifecycle, ApprovedQuoteRegistry.storeQuoteConfig, hne',
        hbindings id' hne']
    · rfl

theorem moved_addQuoteConfig {config : QuoteAssetConfig}
    (h : addQuoteConfig platform views s id config = .ok s') : Moved s .quote id .register s' := by
  simp only [addQuoteConfig, ApprovedQuoteRegistry.addQuoteConfig, bind_eq_ok, pure_eq_ok,
    Except.ok.injEq] at h
  obtain ⟨_, ⟨_, hshape, -, -, -, -, rfl⟩, rfl⟩ := h
  exact moved_storeQuoteConfig ⟨_, rfl⟩ hshape fun _ _ => rfl

theorem moved_addStockQuoteConfig {config : QuoteAssetConfig} {binding : StockQuoteBinding}
    (h : addStockQuoteConfig platform self views s id config binding = .ok s') :
    Moved s .quote id .register s' := by
  simp only [addStockQuoteConfig, ApprovedQuoteRegistry.addStockQuoteConfig, bind_eq_ok, pure_eq_ok,
    Except.ok.injEq] at h
  obtain ⟨_, ⟨_, hshape, -, -, -, -, -, -, -, -, -, -, -, -, -, -, rfl⟩, rfl⟩ := h
  exact moved_storeQuoteConfig ⟨_, rfl⟩ hshape fun _ hne => Function.update_of_ne hne ..

/-! #### The template registry -/

/-- The lifecycle of a template is replaced. -/
theorem moved_template_lifecycle {l : Lifecycle}
    (hmoves : (s.entry .template id).Moves action { s.entry .template id with lifecycle := l }) :
    Moved s .template id action
      { s with templates := LaunchTemplateRegistry.withLifecycle s.templates id l } := by
  refine ⟨?_, ?_⟩
  · convert hmoves using 1
    simp [entry, LaunchTemplateRegistry.lifecycle, LaunchTemplateRegistry.withLifecycle]
  · rintro (_ | _ | _) id' hne
    · rfl
    · rfl
    · have hne' : id' ≠ id := (hne rfl).symm
      simp [entry, LaunchTemplateRegistry.lifecycle, LaunchTemplateRegistry.withLifecycle, hne']

theorem moved_pauseLaunchTemplate {now : ℕ} (h : pauseLaunchTemplate s now id = .ok s') :
    Moved s .template id (.pause now) s' := by
  simp only [pauseLaunchTemplate, liftTemplates, LaunchTemplateRegistry.pauseLaunchTemplate,
    bind_eq_ok, pure_eq_ok, Except.ok.injEq] at h
  obtain ⟨_, ⟨l, hl, rfl⟩, rfl⟩ := h
  obtain ⟨hactive, rfl⟩ := Lifecycle.of_pause hl
  exact moved_template_lifecycle (.pause now hactive)

theorem moved_unpauseLaunchTemplate {now : ℕ} (h : unpauseLaunchTemplate s now id = .ok s') :
    Moved s .template id (.unpause now) s' := by
  simp only [unpauseLaunchTemplate, liftTemplates, LaunchTemplateRegistry.unpauseLaunchTemplate,
    bind_eq_ok, pure_eq_ok, Except.ok.injEq] at h
  obtain ⟨_, ⟨l, hl, rfl⟩, rfl⟩ := h
  obtain ⟨hpaused, hready, rfl⟩ := Lifecycle.of_unpause hl
  exact moved_template_lifecycle (.unpause now hpaused hready)

theorem moved_retireLaunchTemplate (h : retireLaunchTemplate s id = .ok s') :
    Moved s .template id .retire s' := by
  simp only [retireLaunchTemplate, liftTemplates, LaunchTemplateRegistry.retireLaunchTemplate,
    bind_eq_ok, pure_eq_ok, Except.ok.injEq] at h
  obtain ⟨_, ⟨l, hl, rfl⟩, rfl⟩ := h
  obtain ⟨hlive, rfl⟩ := Lifecycle.of_retire hl
  exact moved_template_lifecycle (.retire hlive)

theorem moved_addLaunchTemplate {components : LaunchTemplateRegistry.ComponentViews}
    {template : ComponentTemplate}
    (h : addLaunchTemplate platform views s components id template = .ok s') :
    Moved s .template id .register s' := by
  simp only [addLaunchTemplate, liftTemplates, LaunchTemplateRegistry.addLaunchTemplate, bind_eq_ok,
    revertIf_eq_ok, pure_eq_ok, Except.ok.injEq, not_or, not_not] at h
  obtain ⟨_, ⟨-, hshape, -, hunset, -, -, -, -, -, -, -, -, -, -, -, -, -, -, -, -, rfl⟩, rfl⟩ := h
  have hactive := hshape.2.2.2.2.2.2.2.2.2.2.2.2.2.1
  refine ⟨.register hunset ?_ trivial, ?_⟩
  · simpa [entry, LaunchTemplateRegistry.lifecycle] using hactive
  · rintro (_ | _ | _) id' hne
    · rfl
    · rfl
    · have hne' : id' ≠ id := (hne rfl).symm
      simp [entry, LaunchTemplateRegistry.lifecycle, hne']

/-! ### Steps and runs -/

/-- **A step moves one entry**: the one its label names. -/
theorem moved_of_step (h : Step platform self s label s') :
    Moved s label.kind label.id label.action s' := by
  cases h with
  | registerAsset views uid token decimals vault minimum fingerprint h => exact moved_registerAsset h
  | acceptAssetImplementation views uid implementation hash h =>
    exact moved_acceptAssetImplementation h
  | setMinimumAllocation uid newMinimum h => exact moved_setMinimumAllocation h
  | pauseAsset now uid h => exact moved_pauseAsset h
  | unpauseAsset views now uid h => exact moved_unpauseAsset h
  | retireAsset uid h => exact moved_retireAsset h
  | addQuoteConfig views configId config h => exact moved_addQuoteConfig h
  | addStockQuoteConfig views configId config binding h => exact moved_addStockQuoteConfig h
  | pauseQuote now configId h => exact moved_pauseQuote h
  | unpauseQuote views now configId h => exact moved_unpauseQuote h
  | retireQuote configId h => exact moved_retireQuote h
  | addLaunchTemplate views components templateId value h => exact moved_addLaunchTemplate h
  | pauseLaunchTemplate now templateId h => exact moved_pauseLaunchTemplate h
  | unpauseLaunchTemplate now templateId h => exact moved_unpauseLaunchTemplate h
  | retireLaunchTemplate templateId h => exact moved_retireLaunchTemplate h

/-- **A run of the registries is a run of each entry.** -/
theorem entryRun (h : Transition.Run (Step platform self) s history s') (kind : RegistryKind)
    (id : Bytes32) :
    Transition.Run (Entry.Step kind id) (s.entry kind id) history (s'.entry kind id) := by
  induction h with
  | refl => exact .refl _
  | snoc hrun hstep ih => exact ih.snoc ((moved_of_step hstep).step kind id)

/-- The registries before anything is registered. -/
def Fresh (s : RegistryStorage) : Prop := ∀ kind id, (s.entry kind id).lifecycle.status = 0

end RegistryStorage

section Runs

variable {kind : RegistryKind} {id : Bytes32} {x y : Entry} {history : List RegistryLabel}

/-- **An entry that is set**, along a run: it stays set with the same contents, and is not
registered again. -/
theorem Entry.same_of_run (h : Transition.Run (Entry.Step kind id) x history y)
    (hset : x.lifecycle.status ≠ 0) :
    y.lifecycle.status ≠ 0 ∧ x.contents.Same y.contents ∧ ⟨kind, id, .register⟩ ∉ history := by
  refine h.invariant_history (I := fun history y => y.lifecycle.status ≠ 0 ∧
    x.contents.Same y.contents ∧ ⟨kind, id, .register⟩ ∉ history)
    (fun history y label z hy hstep => ?_) ⟨hset, .refl _, List.not_mem_nil⟩
  obtain ⟨hset, hsame, hnever⟩ := hy
  cases hstep with
  | moves hmoves =>
    obtain ⟨haction, hset', hsame'⟩ := hmoves.same hset
    refine ⟨hset', hsame.trans hsame', fun hmem => ?_⟩
    rcases List.mem_append.mp hmem with hmem | hmem
    · exact hnever hmem
    · exact haction (RegistryLabel.mk.inj (List.mem_singleton.mp hmem)).2.2.symm
  | other hother =>
    refine ⟨hset, hsame, fun hmem => ?_⟩
    rcases List.mem_append.mp hmem with hmem | hmem
    · exact hnever hmem
    · rw [← List.mem_singleton.mp hmem] at hother
      exact hother rfl rfl

/-- **A retired entry stays retired.** -/
theorem Entry.retired_of_run (h : Transition.Run (Entry.Step kind id) x history y)
    (hretired : x.lifecycle.status = configStatusRetired) :
    y.lifecycle.status = configStatusRetired := by
  refine h.invariant (I := fun y => y.lifecycle.status = configStatusRetired)
    (fun y label z hy hstep => ?_) hretired
  cases hstep with
  | moves hmoves => exact hmoves.retired hy
  | other hother => exact hy

theorem Entry.floor_of_run (h : Transition.Run (Entry.Step kind id) x history y)
    (hfloor : x.lifecycle.status ≠ 0 → x.contents.Floor) :
    y.lifecycle.status ≠ 0 → y.contents.Floor := by
  refine h.invariant (I := fun y => y.lifecycle.status ≠ 0 → y.contents.Floor)
    (fun y label z hy hstep => ?_) hfloor
  cases hstep with
  | moves hmoves => exact hmoves.floor hy
  | other hother => exact hy

theorem Entry.remembers_of_run (h : Transition.Run (Entry.Step kind id) x history y)
    (hunset : x.lifecycle.status = 0) : y.Remembers kind id history := by
  refine h.invariant_history (I := fun history y => y.Remembers kind id history)
    (fun history y label z hy hstep => hy.step hstep) fun hpaused => ?_
  exact absurd (hunset.symm.trans hpaused) (by decide)

end Runs

section Claims

variable {platform : Platform} {self : Address} {s t : RegistryStorage}
  {history : List RegistryLabel}

/-- **The status machines of the registries.** In every state of every run, whatever the order of
the calls and whenever they are made:

* a retired entry stays retired and is never registered again;
* an entry that is set keeps its contents, but for the minimum allocation of a stock, which is
  never below the floor, and the implementation of a stock with a beacon, which changes only
  while the stock is paused;
* an entry that is paused becomes active by a call that comes a day or more after the last time
  it was paused. -/
theorem registry_lifecycles (hs : s.Fresh)
    (hrun : Transition.Run (RegistryStorage.Step platform self) s history t) :
    (∀ kind id future u, Transition.Run (RegistryStorage.Step platform self) t future u →
      (t.entry kind id).lifecycle.status = configStatusRetired →
      (u.entry kind id).lifecycle.status = configStatusRetired ∧
        ⟨kind, id, .register⟩ ∉ future) ∧
    (∀ kind id future u, Transition.Run (RegistryStorage.Step platform self) t future u →
      (t.entry kind id).lifecycle.status ≠ 0 →
      (t.entry kind id).contents.Same (u.entry kind id).contents) ∧
    (∀ kind id, (t.entry kind id).lifecycle.status ≠ 0 → (t.entry kind id).contents.Floor) ∧
    (∀ label u, RegistryStorage.Step platform self t label u → ∀ id, (t.asset id).status ≠ 0 →
      u.assetFingerprints id ≠ t.assetFingerprints id →
      (t.asset id).status = configStatusPaused ∧ (u.asset id).status = configStatusPaused) ∧
    ∀ label u, RegistryStorage.Step platform self t label u → ∀ kind id,
      (t.entry kind id).lifecycle.status = configStatusPaused →
      (u.entry kind id).lifecycle.status = configStatusActive →
      ∃ now pausedAt before after, label = ⟨kind, id, .unpause now⟩ ∧
        history = before ++ ⟨kind, id, .pause pausedAt⟩ :: after ∧
        (∀ now', ⟨kind, id, .pause now'⟩ ∉ after) ∧ pausedAt + 86400 ≤ now := by
  refine ⟨fun kind id future u hfuture hretired => ?_, fun kind id future u hfuture hset => ?_,
    fun kind id => ?_, fun label u hstep id hset hne => ?_,
    fun label u hstep kind id hpaused hactive => ?_⟩
  · have hset : (t.entry kind id).lifecycle.status ≠ 0 := by
      rw [hretired]
      decide
    have hentry := RegistryStorage.entryRun hfuture kind id
    exact ⟨Entry.retired_of_run hentry hretired, (Entry.same_of_run hentry hset).2.2⟩
  · exact (Entry.same_of_run (RegistryStorage.entryRun hfuture kind id) hset).2.1
  · exact Entry.floor_of_run (RegistryStorage.entryRun hrun kind id) fun hset =>
      absurd (hs kind id) hset
  · exact ((RegistryStorage.moved_of_step hstep).step .stock id).fingerprint hset
      fun heq => hne (Option.some.inj heq)
  · have hremembers := Entry.remembers_of_run (RegistryStorage.entryRun hrun kind id) (hs kind id)
    obtain ⟨before, after, hsplit, hafter⟩ := hremembers hpaused
    obtain ⟨now, hlabel, hready⟩ :=
      ((RegistryStorage.moved_of_step hstep).step kind id).unpaused hpaused hactive
    exact ⟨now, _, before, after, hlabel, hsplit, hafter, hready⟩

end Claims

/-! ### A pause of a quote

The native currency is admitted, paused, and active again a day later. -/

namespace Sample

/-- The registries, with no entry. -/
def noEntries : RegistryStorage where
  asset _ := ⟨0, 0, 0, 0⟩
  assetIdentityCurrent _ := false
  minimumAllocation _ := 0
  assetUidByStockToken _ := 0
  assetPausedAt _ := 0
  quoteConfig _ := ⟨0, 0, 0, 0, 0, 0, 0⟩
  quoteIdentityCurrent _ := false
  quotePausedAt _ := 0
  baseline _ := ⟨0, 0, 0, 0, 0, 0, 0, 0, 0, 0⟩
  baselinePausedAt _ := 0
  launchTemplate _ := ⟨0, 0, 0, 0, 0⟩
  markets _ := none
  marketIdsByToken _ := 0
  assetFingerprints _ := ⟨0, 0, 0, 0, 0⟩
  nonDelegatingRuntimeHashes _ := false
  vaults := ⟨fun _ => 0, fun _ => 0, fun _ => 0, fun _ => 0, fun _ => 0⟩
  stockQuoteBindings _ := ⟨0, 0, 0, 0⟩
  quoteRuntimeCodeHashes _ := 0
  templates := ⟨fun _ => ⟨⟨0, 0, 0, 0, 0⟩, 0, 0, 0, 0, 0, 0, 0, 0⟩, fun _ => 0, fun _ => 0⟩

/-- No account has code. -/
def noCode : StockViews where
  hasCode _ := false
  codeHash _ := 0
  decimals _ := none
  runtime _ := []
  embeddedBeacon _ := 0
  uid _ := none
  implementation _ := none
  vaultIdentity _ := none

theorem noEntries_fresh : noEntries.Fresh := by
  rintro (_ | _ | _) id <;> rfl

/-- The identifier of a configuration of the native currency: the hash of its economics. -/
def quoteId : Bytes32 :=
  DocumentedV4.platform.keccak256 (.quoteEconomics "TICKERGARDEN_V1_QUOTE_ECONOMICS" 1 1 1 0 18 5 7)

/-- A quote in the native currency is configured. -/
def admitted : Except Revert RegistryStorage :=
  RegistryStorage.addQuoteConfig DocumentedV4.platform noCode noEntries quoteId
    ⟨1, 0, 18, 5, 7, quoteId, configStatusActive⟩

theorem admitted_isOk : admitted.isOk = true := by decide +kernel

/-- It is paused, -/
def pausedQuote : Except Revert RegistryStorage :=
  RegistryStorage.pauseQuote (value admitted admitted_isOk) 1000 quoteId

theorem pausedQuote_isOk : pausedQuote.isOk = true := by decide +kernel

/-- and active again a day later. -/
def unpausedQuote : Except Revert RegistryStorage :=
  RegistryStorage.unpauseQuote DocumentedV4.platform 80 noCode (value pausedQuote pausedQuote_isOk)
    87400 quoteId

theorem unpausedQuote_isOk : unpausedQuote.isOk = true := by decide +kernel

theorem pausedQuote_run : Transition.Run (RegistryStorage.Step DocumentedV4.platform 80) noEntries
    [⟨.quote, quoteId, .register⟩, ⟨.quote, quoteId, .pause 1000⟩]
    (value pausedQuote pausedQuote_isOk) :=
  (Transition.Run.single (RegistryStorage.Step.addQuoteConfig noCode quoteId _
    (eq_ok_value admitted_isOk))).snoc
    (RegistryStorage.Step.pauseQuote 1000 quoteId (eq_ok_value pausedQuote_isOk))

end Sample

/-- The configuration is active again a day after it was paused. -/
theorem registry_lifecycles_sample :
    ∃ (now pausedAt : ℕ) (before after : List RegistryLabel),
      (⟨.quote, Sample.quoteId, .unpause 87400⟩ : RegistryLabel)
        = ⟨.quote, Sample.quoteId, .unpause now⟩ ∧
      [⟨.quote, Sample.quoteId, .register⟩, ⟨.quote, Sample.quoteId, .pause 1000⟩]
        = before ++ ⟨.quote, Sample.quoteId, .pause pausedAt⟩ :: after ∧
      (∀ now', ⟨.quote, Sample.quoteId, .pause now'⟩ ∉ after) ∧ pausedAt + 86400 ≤ now :=
  (registry_lifecycles Sample.noEntries_fresh Sample.pausedQuote_run).2.2.2.2 _ _
    (RegistryStorage.Step.unpauseQuote Sample.noCode 87400 Sample.quoteId
      (eq_ok_value Sample.unpausedQuote_isOk)) .quote Sample.quoteId (by decide +kernel)
      (by decide +kernel)

end TickerGarden
