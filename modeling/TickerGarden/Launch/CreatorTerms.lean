import TickerGarden.Launch.MarketEconomics
import TickerGarden.Registry.Lifecycles

/-!
# What the creator's word pins down

A creator looks at the terms of a market and sends the hash of them with the request, the
expected economics. When the request is carried out, perhaps much later, the factory looks
the terms up again and compares hashes. This module says what that comparison is worth.

The word is a hash of hashes. It contains the hash of the baseline, which the factory takes
at that moment; the identifier of the quote configuration, which is a hash of its contents
because the quote registry insists on it; and the hash of the template, which the template
registry took when the template was added. So it takes an invariant of the registries to
know what the word is about: `TickerGarden.RegistryStorage.ContentHashed`, that every
identifier and every stored hash is the hash of what is there now. It holds because the
contents of an entry never change, which is `TickerGarden.RegistryStorage.moved_of_step`.

With it, and as long as the few tuples that are hashed do not collide,
`TickerGarden.Factory.word_pins_terms`: the word that is good for one state of the
registries is good for another **exactly** if the terms are the same.
-/

namespace TickerGarden

open Checked

/-! ### Identifiers and hashes -/

section Entry

variable {platform : Platform} {x y : Entry} {action : EntryAction}

/-- What the identifier of a quote configuration may be the hash of: its economics, as a
quote of its own or as a stock token with its binding. -/
def quotePreimages (platform : Platform) (config : QuoteAssetConfig) (binding : StockQuoteBinding) :
    List Preimage :=
  [.quoteEconomics "TICKERGARDEN_V1_QUOTE_ECONOMICS" 1 platform.chainId
      config.tickerGardenBaselineId config.quoteAsset config.quoteDecimals config.phantomQuote
      config.graduationThreshold,
    .stockQuoteEconomics "TICKERGARDEN_V1_STOCK_QUOTE_ECONOMICS" 1 platform.chainId
      config.tickerGardenBaselineId config.quoteAsset config.quoteDecimals config.phantomQuote
      config.graduationThreshold binding]

/-- **The contents are hashed**: a quote configuration by its identifier, and a template by
the hash that is kept with it. -/
def Contents.Hashed (platform : Platform) (id : Bytes32) : Contents → Prop
  | .stock _ _ _ => True
  | .quote config binding _ => ∃ p ∈ quotePreimages platform config binding, id = platform.keccak256 p
  | .template value hash =>
    hash = platform.keccak256 (LaunchTemplateRegistry.templateEncoding value)

/-- Contents that are the same are hashed by the same. -/
theorem Contents.Hashed.of_same {id : Bytes32} {c c' : Contents} (h : c.Hashed platform id)
    (hsame : c.Same c') : c'.Hashed platform id := by
  rcases c with _ | _ | _
  · rcases c' with _ | _ | _
    · exact trivial
    · cases hsame
    · cases hsame
  · obtain rfl : c' = _ := hsame
    exact h
  · obtain rfl : c' = _ := hsame
    exact h

/-- An entry that is not set can only be registered. -/
theorem Entry.Moves.register_of_unset (h : x.Moves action y) (hunset : x.lifecycle.status = 0) :
    action = .register := by
  cases h with
  | register hunset' hactive hfloor => rfl
  | pause now hactive => exact absurd (hunset.symm.trans hactive) (by decide)
  | unpause now hpaused hready => exact absurd (hunset.symm.trans hpaused) (by decide)
  | retire hlive =>
    rcases hlive with hlive | hlive <;> exact absurd (hunset.symm.trans hlive) (by decide)
  | setMinimum hset hfloor => exact absurd hunset hset
  | accept implementation hash hpaused hbeacon =>
    exact absurd (hunset.symm.trans hpaused) (by decide)

end Entry

namespace RegistryStorage

variable {platform : Platform} {self : Address} {views : StockViews} {s s' : RegistryStorage}
  {kind : RegistryKind} {id : Bytes32} {label : RegistryLabel}

/-- **Every entry that is set is hashed.** -/
def ContentHashed (platform : Platform) (s : RegistryStorage) : Prop :=
  ∀ kind id, (s.entry kind id).lifecycle.status ≠ 0 → (s.entry kind id).contents.Hashed platform id

/-- A quote configuration is added under the hash of its economics. -/
theorem hashed_addQuoteConfig {config : QuoteAssetConfig}
    (h : addQuoteConfig platform views s id config = .ok s') :
    (s'.entry .quote id).contents.Hashed platform id := by
  simp only [addQuoteConfig, ApprovedQuoteRegistry.addQuoteConfig, bind_eq_ok, revertIf_eq_ok,
    pure_eq_ok, Except.ok.injEq, not_or, not_not] at h
  obtain ⟨_, ⟨_, -, -, -, -, ⟨hid, -⟩, rfl⟩, rfl⟩ := h
  refine ⟨_, List.mem_cons_self, ?_⟩
  simpa [ApprovedQuoteRegistry.storeQuoteConfig] using hid

/-- So is one with a stock token, with its binding. -/
theorem hashed_addStockQuoteConfig {config : QuoteAssetConfig} {binding : StockQuoteBinding}
    (h : addStockQuoteConfig platform self views s id config binding = .ok s') :
    (s'.entry .quote id).contents.Hashed platform id := by
  simp only [addStockQuoteConfig, ApprovedQuoteRegistry.addStockQuoteConfig, bind_eq_ok,
    revertIf_eq_ok, pure_eq_ok, Except.ok.injEq, not_or, not_not] at h
  obtain ⟨_, ⟨_, -, -, -, -, -, -, -, -, -, -, -, -, -, -, ⟨hid, -⟩, rfl⟩, rfl⟩ := h
  refine ⟨_, List.mem_cons_of_mem _ List.mem_cons_self, ?_⟩
  simpa [ApprovedQuoteRegistry.storeQuoteConfig, ApprovedQuoteRegistry.stockQuoteEconomicsHash]
    using hid

/-- A template is added with its hash. -/
theorem hashed_addLaunchTemplate {components : LaunchTemplateRegistry.ComponentViews}
    {value : ComponentTemplate} (h : addLaunchTemplate platform views s components id value = .ok s') :
    (s'.entry .template id).contents.Hashed platform id := by
  simp only [addLaunchTemplate, liftTemplates, LaunchTemplateRegistry.addLaunchTemplate, bind_eq_ok,
    revertIf_eq_ok, pure_eq_ok, Except.ok.injEq] at h
  obtain ⟨_, ⟨-, -, -, -, -, -, -, -, -, -, -, -, -, -, -, -, -, -, -, -, rfl⟩, rfl⟩ := h
  simp [entry, Contents.Hashed, LaunchTemplateRegistry.templateEncoding]

/-- **The entries stay hashed.** -/
theorem ContentHashed.step (hs : ContentHashed platform s) (h : Step platform self s label s') :
    ContentHashed platform s' := by
  have hmoved := moved_of_step h
  intro kind id hset
  by_cases hsame : label.kind = kind ∧ label.id = id
  · obtain ⟨rfl, rfl⟩ := hsame
    by_cases hunset : (s.entry label.kind label.id).lifecycle.status = 0
    · -- a new entry: the call that added it compared, or took, the hash
      have hregister := hmoved.moves.register_of_unset hunset
      cases h with
      | registerAsset => exact trivial
      | addQuoteConfig views configId config h => exact hashed_addQuoteConfig h
      | addStockQuoteConfig views configId config binding h => exact hashed_addStockQuoteConfig h
      | addLaunchTemplate views components templateId value h => exact hashed_addLaunchTemplate h
      | acceptAssetImplementation | setMinimumAllocation | pauseAsset | unpauseAsset | retireAsset
      | pauseQuote | unpauseQuote | retireQuote | pauseLaunchTemplate | unpauseLaunchTemplate
      | retireLaunchTemplate => cases hregister
    · exact (hs _ _ hunset).of_same (hmoved.moves.same hunset).2.2
  · have hother := hmoved.other kind id fun hkind hid => hsame ⟨hkind, hid⟩
    rw [hother] at hset ⊢
    exact hs kind id hset

/-- The entries of every reachable state are hashed. -/
theorem contentHashed_of_reachable
    (h : Transition.Reachable (Step platform self) Fresh s) : ContentHashed platform s :=
  h.invariant (fun _ hfresh kind id hset => absurd (hfresh kind id) hset)
    fun _ _ _ hs hstep => hs.step hstep

end RegistryStorage

/-! ### The terms of a request -/

namespace Factory

open V1MarketEconomics RegistryStorage

variable {d : Deployment} {code code₁ code₂ : CodeView} {vaults vaults₁ vaults₂ : VaultViews}
  {views₁ views₂ : StockViews} {s s₁ s₂ : RegistryStorage} {r : Registries}
  {t : LaunchTemplateRegistry.State} {creator creator₁ creator₂ : Address}
  {params params₁ params₂ : CreateMarketParams} {snapshot snapshot₁ snapshot₂ : EconomicsSnapshot}
  {word : Bytes32}

/-- The registries as the factory reads them: the identities are checked when it asks. -/
def observed (d : Deployment) (views : StockViews) (s : RegistryStorage) : Registries :=
  { withIdentities d.officialStockRegistry views s with
    quoteIdentityCurrent := ApprovedQuoteRegistry.quoteIdentityCurrent d.platform
      d.officialStockRegistry views s }

/-- **What is known of a request that is resolved**: its entries are those the request
names, active, in the domain of graduation; and the hashes are taken of them. -/
structure Resolved (d : Deployment) (r : Registries) (t : LaunchTemplateRegistry.State)
    (params : CreateMarketParams) (snapshot : EconomicsSnapshot) : Prop where
  quote_eq : snapshot.quote = r.quoteConfig params.quoteAssetConfigId
  quote_active : snapshot.quote.status = configStatusActive
  quote_hash : snapshot.quote.economicsHash = params.quoteAssetConfigId
  baseline_active : snapshot.baseline.status = configStatusActive
  admitted : EconomicDomain.validate d.platform snapshot.baseline snapshot.quote = .ok ()
  template_eq : snapshot.template = t.launchTemplates params.launchTemplateId
  template_active : snapshot.template.status = configStatusActive
  template_hash : snapshot.launchTemplateHash = t.launchTemplateHashes params.launchTemplateId
  baseline_hash : snapshot.tickerGardenBaselineHash
    = d.platform.keccak256 (baselineEncoding snapshot.baseline)
  policy_hash : snapshot.feePolicyHash = d.platform.keccak256 (feePolicyEncoding d.feePolicy)
  economics : snapshot.expectedEconomics = d.platform.keccak256 (economicsEncoding
    (economicsInput d params snapshot.asset snapshot.quote snapshot.baseline
      snapshot.tickerGardenBaselineHash snapshot.launchTemplateHash snapshot.feePolicyHash))

theorem resolved_of_resolve (h : resolve d code vaults r t creator params = .ok snapshot) :
    Resolved d r t params snapshot := by
  simp only [resolve, resolveQuote, resolveBaseline, resolveTemplate, bind_eq_ok, revertIf_eq_ok,
    pure_eq_ok, Except.ok.injEq, not_not] at h
  obtain ⟨-, -, -, -, -, -, -, -, -, -, asset, -, quote, ⟨-, hquote, -, -, -, -, -, hhash, rfl⟩,
    baseline, ⟨-, hbaseline, _, hadmitted, -, -, rfl⟩, template, ⟨-, htemplate, -, -, rfl⟩, -, -,
    rfl⟩ := h
  exact ⟨rfl, hquote, hhash, hbaseline, hadmitted, rfl, htemplate, rfl, rfl, rfl, rfl⟩

/-- The tuples that the word of a resolved request is about. -/
def hashedTuples (d : Deployment) (s : RegistryStorage) (params : CreateMarketParams)
    (snapshot : EconomicsSnapshot) : List Preimage :=
  economicsEncoding (economicsInput d params snapshot.asset snapshot.quote snapshot.baseline
      snapshot.tickerGardenBaselineHash snapshot.launchTemplateHash snapshot.feePolicyHash) ::
    baselineEncoding snapshot.baseline ::
    LaunchTemplateRegistry.templateEncoding snapshot.template ::
    quotePreimages d.platform snapshot.quote (s.stockQuoteBindings params.quoteAssetConfigId)

/-- The tuples of a list do not collide. -/
def NoCollision (platform : Platform) (tuples : List Preimage) : Prop :=
  ∀ p ∈ tuples, ∀ q ∈ tuples, platform.keccak256 p = platform.keccak256 q → p = q

/-- **The terms are the same**: the stock, the quote, the baseline and the template, and
what the creator chose. -/
structure SameTerms (params₁ : CreateMarketParams) (snapshot₁ : EconomicsSnapshot)
    (params₂ : CreateMarketParams) (snapshot₂ : EconomicsSnapshot) : Prop where
  assetUid : params₁.assetUid = params₂.assetUid
  stockToken : snapshot₁.asset.stockToken = snapshot₂.asset.stockToken
  stockDecimals : snapshot₁.asset.tokenDecimals = snapshot₂.asset.tokenDecimals
  baselineId : params₁.tickerGardenBaselineId = params₂.tickerGardenBaselineId
  baseline : snapshot₁.baseline = snapshot₂.baseline
  quoteId : params₁.quoteAssetConfigId = params₂.quoteAssetConfigId
  quote : snapshot₁.quote = snapshot₂.quote
  templateId : params₁.launchTemplateId = params₂.launchTemplateId
  template : snapshot₁.template = snapshot₂.template
  creatorTaxBps : params₁.creatorTaxBps = params₂.creatorTaxBps
  creatorFeesToHolders : params₁.creatorFeesToHolders = params₂.creatorFeesToHolders
  stakingEnabled : params₁.stakingEnabled = params₂.stakingEnabled
  burnMemeFees : params₁.burnMemeFees = params₂.burnMemeFees
  lpFeePips : params₁.lpFeePips = params₂.lpFeePips

/-- The word is compared with the one that is computed. -/
theorem validateExpected_eq_ok :
    validateExpected snapshot word = .ok () ↔ word = snapshot.expectedEconomics := by
  rw [validateExpected, revertIf_eq_ok, not_not]

/-- The identifier of the quote is the hash of one of its tuples. -/
theorem Resolved.quote_hashed {views : StockViews}
    (h : Resolved d (observed d views s) s.templates params snapshot)
    (hs : ContentHashed d.platform s) :
    ∃ p ∈ quotePreimages d.platform snapshot.quote (s.stockQuoteBindings params.quoteAssetConfigId),
      params.quoteAssetConfigId = d.platform.keccak256 p := by
  have hquote : snapshot.quote = s.quoteConfig params.quoteAssetConfigId := h.quote_eq
  have hset : (s.entry .quote params.quoteAssetConfigId).lifecycle.status ≠ 0 := by
    have hactive := h.quote_active
    rw [hquote] at hactive
    exact fun hzero => absurd (hactive.symm.trans hzero) (by decide)
  rw [hquote]
  exact hs .quote _ hset

/-- The hash of the template is the hash of the template. -/
theorem Resolved.template_hashed (h : Resolved d r s.templates params snapshot)
    (hs : ContentHashed d.platform s) : snapshot.launchTemplateHash
      = d.platform.keccak256 (LaunchTemplateRegistry.templateEncoding snapshot.template) := by
  have hset : (s.entry .template params.launchTemplateId).lifecycle.status ≠ 0 := by
    have hactive := h.template_active
    rw [h.template_eq] at hactive
    exact fun hzero => absurd (hactive.symm.trans hzero) (by decide)
  rw [h.template_hash, h.template_eq]
  exact hs .template _ hset

/-- Baselines with the same encoding and the same status are the same. -/
theorem baseline_eq_of_encoding {b b' : TickerGardenBaseline}
    (h : baselineEncoding b = baselineEncoding b') (hstatus : b.status = b'.status) : b = b' := by
  cases b
  cases b'
  simp_all [baselineEncoding]

/-- So are templates, -/
theorem template_eq_of_encoding {c c' : ComponentTemplate}
    (h : LaunchTemplateRegistry.templateEncoding c = LaunchTemplateRegistry.templateEncoding c')
    (hstatus : c.status = c'.status) : c = c' := by
  obtain ⟨⟨⟩⟩ := c
  obtain ⟨⟨⟩⟩ := c'
  simp_all [LaunchTemplateRegistry.templateEncoding]

/-- and quote configurations that have a tuple in common, with the same identifier. -/
theorem quote_eq_of_preimage {q q' : QuoteAssetConfig} {binding binding' : StockQuoteBinding}
    {p : Preimage} {platform : Platform} (h : p ∈ quotePreimages platform q binding)
    (h' : p ∈ quotePreimages platform q' binding') (hhash : q.economicsHash = q'.economicsHash)
    (hstatus : q.status = q'.status) : q = q' := by
  cases q
  cases q'
  simp only [quotePreimages, List.mem_cons, List.not_mem_nil, or_false] at h h'
  rcases h with rfl | rfl <;> simp_all

/-- **Equal words, equal terms.** -/
theorem sameTerms_of_economics
    (h₁ : Resolved d (observed d views₁ s₁) s₁.templates params₁ snapshot₁)
    (h₂ : Resolved d (observed d views₂ s₂) s₂.templates params₂ snapshot₂)
    (hs₁ : ContentHashed d.platform s₁) (hs₂ : ContentHashed d.platform s₂)
    (hno : NoCollision d.platform
      (hashedTuples d s₁ params₁ snapshot₁ ++ hashedTuples d s₂ params₂ snapshot₂))
    (hword : snapshot₁.expectedEconomics = snapshot₂.expectedEconomics) :
    SameTerms params₁ snapshot₁ params₂ snapshot₂ := by
  have left : ∀ {p}, p ∈ hashedTuples d s₁ params₁ snapshot₁ →
      p ∈ hashedTuples d s₁ params₁ snapshot₁ ++ hashedTuples d s₂ params₂ snapshot₂ :=
    fun h => List.mem_append_left _ h
  have right : ∀ {p}, p ∈ hashedTuples d s₂ params₂ snapshot₂ →
      p ∈ hashedTuples d s₁ params₁ snapshot₁ ++ hashedTuples d s₂ params₂ snapshot₂ :=
    fun h => List.mem_append_right _ h
  -- the word is the hash of the same input
  have hinput := hno _ (left List.mem_cons_self) _ (right List.mem_cons_self)
    ((h₁.economics.symm.trans hword).trans h₂.economics)
  simp only [economicsEncoding, economicsInput, Preimage.expectedEconomics.injEq, true_and,
    ExpectedEconomicsInput.mk.injEq] at hinput
  obtain ⟨hasset, htoken, hdecimals, hbaselineId, hbaselineHash, hquoteId, -, htemplateId,
    htemplateHash, -, -, htax, hholders, hstaking, hburn, hlp⟩ := hinput
  -- the baseline is the one that was hashed
  have hbaseline : snapshot₁.baseline = snapshot₂.baseline := by
    refine baseline_eq_of_encoding (hno _ (left (List.mem_cons_of_mem _ List.mem_cons_self)) _
      (right (List.mem_cons_of_mem _ List.mem_cons_self)) ?_)
      (h₁.baseline_active.trans h₂.baseline_active.symm)
    rw [← h₁.baseline_hash, ← h₂.baseline_hash, hbaselineHash]
  -- the template is the one that was hashed when it was added
  have htemplate : snapshot₁.template = snapshot₂.template := by
    refine template_eq_of_encoding
      (hno _ (left (List.mem_cons_of_mem _ (List.mem_cons_of_mem _ List.mem_cons_self))) _
        (right (List.mem_cons_of_mem _ (List.mem_cons_of_mem _ List.mem_cons_self))) ?_)
      (h₁.template_active.trans h₂.template_active.symm)
    rw [← h₁.template_hashed hs₁, ← h₂.template_hashed hs₂, htemplateHash]
  -- the identifier of the quote is a hash of the quote
  obtain ⟨p, hp, hid⟩ := h₁.quote_hashed hs₁
  obtain ⟨q, hq, hid'⟩ := h₂.quote_hashed hs₂
  have hsame : p = q := by
    refine hno p (left ?_) q (right ?_) (by rw [← hid, ← hid', hquoteId])
    · exact List.mem_cons_of_mem _ (List.mem_cons_of_mem _ (List.mem_cons_of_mem _ hp))
    · exact List.mem_cons_of_mem _ (List.mem_cons_of_mem _ (List.mem_cons_of_mem _ hq))
  have hquote : snapshot₁.quote = snapshot₂.quote := by
    refine quote_eq_of_preimage hp (hsame ▸ hq) ?_ (h₁.quote_active.trans h₂.quote_active.symm)
    rw [h₁.quote_hash, h₂.quote_hash, hquoteId]
  exact ⟨hasset, htoken, hdecimals, hbaselineId, hbaseline, hquoteId, hquote, htemplateId,
    htemplate, htax, hholders, hstaking, hburn, hlp⟩

/-- **Equal terms, equal words.** -/
theorem SameTerms.economics (h : SameTerms params₁ snapshot₁ params₂ snapshot₂)
    (h₁ : Resolved d (observed d views₁ s₁) s₁.templates params₁ snapshot₁)
    (h₂ : Resolved d (observed d views₂ s₂) s₂.templates params₂ snapshot₂)
    (hs₁ : ContentHashed d.platform s₁) (hs₂ : ContentHashed d.platform s₂) :
    snapshot₁.expectedEconomics = snapshot₂.expectedEconomics := by
  rw [h₁.economics, h₂.economics]
  refine congrArg (fun input => d.platform.keccak256 (economicsEncoding input)) ?_
  simp only [economicsInput, h.assetUid, h.stockToken, h.stockDecimals, h.baselineId, h.quoteId,
    h.templateId, h.quote, h.baseline, h.creatorTaxBps, h.creatorFeesToHolders, h.stakingEnabled,
    h.burnMemeFees, h.lpFeePips, h₁.baseline_hash, h₂.baseline_hash, h₁.policy_hash, h₂.policy_hash,
    h₁.template_hashed hs₁, h₂.template_hashed hs₂, h.template]

/-- **The creator's word pins the terms.** Take two requests that are resolved, at any two
reachable states of the registries, and a word that is good for the first. The terms of the
first can be graduated; and the word is good for the second exactly if its terms are the
same. -/
theorem word_pins_terms
    (hs₁ : Transition.Reachable (Step d.platform d.officialStockRegistry) Fresh s₁)
    (hs₂ : Transition.Reachable (Step d.platform d.officialStockRegistry) Fresh s₂)
    (h₁ : resolve d code₁ vaults₁ (observed d views₁ s₁) s₁.templates creator₁ params₁
      = .ok snapshot₁)
    (h₂ : resolve d code₂ vaults₂ (observed d views₂ s₂) s₂.templates creator₂ params₂
      = .ok snapshot₂)
    (hno : NoCollision d.platform
      (hashedTuples d s₁ params₁ snapshot₁ ++ hashedTuples d s₂ params₂ snapshot₂))
    (hword : validateExpected snapshot₁ word = .ok ()) :
    EconomicDomain.validate d.platform snapshot₁.baseline snapshot₁.quote = .ok () ∧
      (validateExpected snapshot₂ word = .ok () ↔
        SameTerms params₁ snapshot₁ params₂ snapshot₂) := by
  have hr₁ := resolved_of_resolve h₁
  have hr₂ := resolved_of_resolve h₂
  have hh₁ := contentHashed_of_reachable hs₁
  have hh₂ := contentHashed_of_reachable hs₂
  rw [validateExpected_eq_ok] at hword
  refine ⟨hr₁.admitted, ?_⟩
  rw [validateExpected_eq_ok, hword]
  exact ⟨sameTerms_of_economics hr₁ hr₂ hh₁ hh₂ hno, fun h => h.economics hr₁ hr₂ hh₁ hh₂⟩

/-! ### A request, before and after another quote

A quote and a template are added and a request is resolved; then another quote is added,
and the request is resolved again. -/

namespace Sample

/-- Every account has code, and the same. -/
def everyCode : StockViews :=
  { TickerGarden.Sample.noCode with hasCode := fun _ => true, codeHash := fun _ => 1 }

/-- What the components of the template answer. -/
def components : LaunchTemplateRegistry.ComponentViews where
  hookMarketRegistry _ := 20
  hookPoolManager _ := 21
  hookProtocolFeeVault _ := 8
  hookGraduationExecutor _ := 9
  executorHook _ := 0x2044
  executorMarketRegistry _ := 20
  executorPoolManager _ := 21
  executorApprovedQuoteRegistry _ := 22
  executorFactory _ := 23
  executorLaunchLockerCreationCodeHash _ := 1
  registryApprovedQuoteRegistry _ := 22
  registryFactory _ := 23
  registryGraduationExecutor _ := 9
  feeVaultMarketRegistry _ := 20
  feeVaultPoolManager _ := 21
  feeVaultFeePolicyId _ := 5

/-- The factory. -/
def deployment : Deployment where
  platform := DocumentedV4.platform
  factory := ⟨8, 10, 5, executionSpecId DocumentedV4.platform⟩
  registry := ⟨23, 9, executionSpecId DocumentedV4.platform⟩
  officialStockRegistry := 80
  marketRegistry := 20
  allocationManager := 24

/-- The template. -/
def template : ComponentTemplate :=
  ⟨⟨0x2044, 9, 5, executionSpecId DocumentedV4.platform, configStatusActive⟩,
    1, 1, 2, 1, 3, 1, 1, 1⟩

/-- The quote in the native currency, with a threshold. -/
def quote (graduationThreshold : ℕ) : QuoteAssetConfig :=
  let id := DocumentedV4.platform.keccak256
    (.quoteEconomics "TICKERGARDEN_V1_QUOTE_ECONOMICS" 1 1 2 0 18 100 graduationThreshold)
  ⟨2, 0, 18, 100, graduationThreshold, id, configStatusActive⟩

/-- The registries, with nothing but a baseline. -/
def empty : RegistryStorage :=
  { TickerGarden.Sample.noEntries with baseline := Graduation.Sample.before.baseline }

/-- A quote is added, -/
def quoted : Except Revert RegistryStorage :=
  addQuoteConfig DocumentedV4.platform everyCode empty (quote 100).economicsHash (quote 100)

/-- and the template: -/
def templated : Except Revert RegistryStorage :=
  addLaunchTemplate DocumentedV4.platform everyCode (value quoted (by decide +kernel)) components 4
    template

/-- the registries at the first request. -/
def first : RegistryStorage := value templated (by decide +kernel)

/-- Another quote is added: -/
def requoted : Except Revert RegistryStorage :=
  addQuoteConfig DocumentedV4.platform everyCode first (quote 200).economicsHash (quote 200)

/-- the registries at the second. -/
def second : RegistryStorage := value requoted (by decide +kernel)

/-- The request. -/
def request : CreateMarketParams :=
  { Graduation.Sample.params with quoteAssetConfigId := (quote 100).economicsHash }

/-- It is resolved. -/
def resolution (s : RegistryStorage) : Except Revert EconomicsSnapshot :=
  resolve deployment everyCode.toCodeView ⟨fun _ => 0, fun _ => 0, fun _ => 0, fun _ => none⟩
    (observed deployment everyCode s) s.templates 11 request

/-- The terms at the first request, -/
def firstTerms : EconomicsSnapshot := value (resolution first) (by decide +kernel)

/-- and at the second. -/
def secondTerms : EconomicsSnapshot := value (resolution second) (by decide +kernel)

theorem reachable_first : Transition.Reachable (Step DocumentedV4.platform 80) Fresh first := by
  have hfresh : Fresh empty := by rintro (_ | _ | _) id <;> rfl
  exact ((Transition.Reachable.of_init hfresh).next
    (.addQuoteConfig everyCode _ _ (eq_ok_value _))).next
    (.addLaunchTemplate everyCode components _ _ (eq_ok_value _))

theorem reachable_second : Transition.Reachable (Step DocumentedV4.platform 80) Fresh second :=
  reachable_first.next (.addQuoteConfig everyCode _ _ (eq_ok_value _))

end Sample

/-- The word for the first request is good for the second, if and only if the terms are
those of the first. -/
theorem word_pins_terms_sample :
    EconomicDomain.validate DocumentedV4.platform Sample.firstTerms.baseline
        Sample.firstTerms.quote = .ok () ∧
      (validateExpected Sample.secondTerms Sample.firstTerms.expectedEconomics = .ok () ↔
        SameTerms Sample.request Sample.firstTerms Sample.request Sample.secondTerms) :=
  word_pins_terms (d := Sample.deployment) Sample.reachable_first Sample.reachable_second
    (eq_ok_value _) (eq_ok_value _) (by unfold NoCollision; decide +kernel)
    (validateExpected_eq_ok.mpr rfl)

end Factory

end TickerGarden
