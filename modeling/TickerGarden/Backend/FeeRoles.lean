import TickerGarden.Backend.FeeCredits
import TickerGarden.Fees.Conservation

/-!
# The fee ledger, from its events

Summing what the events of the fee vault credit, and taking off what they claim, burn and
reserve, gives the buckets of the vault: `TickerGarden.ProtocolFeeVault.fee_roles`.

What an event tells about a bucket is `TickerGarden.ProtocolFeeVault.tells`. The
**position** of a bucket is what it holds beyond what the events so far tell. Inside a call
a bucket moves before its event is emitted, or the other way around, so that a position is
not constant there; `TickerGarden.ProtocolFeeVault.Posts` says by how much each of the four
has moved, and it adds up along a sequence. Over a whole call three of them are back where
they were; the holders' has moved by what the call paid to the distributor, for which the
vault emits no event.

Two things are therefore read off the calls rather than off the log: what is paid to the
distributor, and what comes in. They are the labels of `TickerGarden.ProtocolFeeVault.Traced`,
the steps of the vault told with their movements.
-/

namespace TickerGarden

open Checked Function

namespace ProtocolFeeVault

open Backend (FeeRecipient RpcLog creditedTo feeCredits)

/-! ### The gauge's side of a claim -/

/-- What the gauge of a market is made of, as far as the vault calls it. -/
structure GaugeCode (G : Type) where
  effectiveTotalActiveStock : Bytes32 → G → Except Revert ℕ
  creditStakerFee : Bytes32 → (feeAsset : Address) → (amount : ℕ) → (feeId : Bytes32) → G →
    Except Revert G
  /-- The checks of a claim, and `_settlePosition`. -/
  settlePosition : Bytes32 → (user : Address) → G → Except Revert G
  /-- `_consumeClaimable`. -/
  consumeClaimable : Bytes32 → (user : Address) → (rewardIndex : ℕ) → G → Except Revert (G × ℕ)

namespace GaugeCode

variable {G : Type} (code : GaugeCode G)

/-- The consumption of one asset, if it is selected. -/
def consumeSelected (marketId : Bytes32) (user : Address) (selected : Bool) (rewardIndex : ℕ)
    (g : G) : Except Revert (G × ℕ) :=
  if selected then code.consumeClaimable marketId user rewardIndex g else .ok (g, 0)

/-- `_consumeClaimableAssets`. -/
def consumeClaimableAssets (marketId : Bytes32) (user : Address) (assets : BitVec 8) (g : G) :
    Except Revert (G × ℕ × ℕ) := do
  revertIf (assets = 0 ∨ assets > 3) (.gauge (.invalidRewardIndex assets.toNat))
  let g ← code.settlePosition marketId user g
  let (g, quote) ← code.consumeSelected marketId user (hasQuote assets) 0 g
  let (g, meme) ← code.consumeSelected marketId user (hasMeme assets) 1 g
  return (g, quote, meme)

/-- What the vault calls. -/
def calls : GaugeCalls G where
  effectiveTotalActiveStock := code.effectiveTotalActiveStock
  creditStakerFee := code.creditStakerFee
  consumeClaimableAssets := code.consumeClaimableAssets

/-- **What is not selected is not paid.** -/
theorem of_consumeClaimableAssets {marketId : Bytes32} {user : Address} {assets : BitVec 8}
    {g g' : G} {q m : ℕ}
    (h : code.calls.consumeClaimableAssets marketId user assets g = .ok (g', q, m)) :
    (hasQuote assets = false → q = 0) ∧ (hasMeme assets = false → m = 0) := by
  simp only [calls, consumeClaimableAssets, bind_eq_ok, pure_eq_ok, Except.ok.injEq,
    Prod.mk.injEq] at h
  obtain ⟨-, -, _, -, ⟨_, _⟩, hquote, ⟨_, _⟩, hmeme, -, rfl, rfl⟩ := h
  constructor
  · intro hnot
    rw [hnot] at hquote
    exact (Prod.mk.inj (Except.ok.inj hquote)).2.symm
  · intro hnot
    rw [hnot] at hmeme
    exact (Prod.mk.inj (Except.ok.inj hmeme)).2.symm

end GaugeCode

/-! ### What the events tell -/

/-- The bucket of a role. -/
def bucketOf : FeeRecipient → Bucket
  | .creator => .creatorRevenue
  | .stakers => .stakerReward
  | .platform => .platformRevenue
  | .holders => .holderReward

section Events

variable (id : Bytes32) (asset : Address)

/-- What beneficiaries of a type claim. -/
def Event.claimed (beneficiaryType : ℕ) : Event → ℕ
  | .feeClaimed t _ marketId _ feeAsset amount =>
    if t = beneficiaryType then onAccount id marketId asset feeAsset amount else 0
  | _ => 0

/-- What is burned for a role. -/
def Event.burned (role : ℕ) : Event → ℕ
  | .memeFeesBurned marketId _ r _ token amount =>
    if r = role then onAccount id marketId asset token amount else 0
  | _ => 0

/-- The forfeitures that are reserved. -/
def Event.reserved : Event → ℕ
  | .forfeitureReserved marketId _ feeAsset amount _ => onAccount id marketId asset feeAsset amount
  | _ => 0

/-- What of the reserve is converted. -/
def Event.converted : Event → ℕ
  | .forfeitureReserveConverted marketId feeAsset amount =>
    onAccount id marketId asset feeAsset amount
  | _ => 0

/-- The credits of all roles. -/
def Event.credits (e : Event) : ℕ :=
  e.credit id asset .creator + e.credit id asset .stakers + e.credit id asset .platform
    + e.credit id asset .holders

/-- **What an event tells about a bucket.** -/
def tells (e : Event) : FeeRecipient → ℤ
  | .creator => e.credit id asset .creator - e.claimed id asset 0 - e.burned id asset 0
  | .stakers => e.credit id asset .stakers - e.claimed id asset 1 - e.burned id asset 1
    - e.reserved id asset
  | .platform => e.credit id asset .platform + e.converted id asset - e.claimed id asset 2
  | .holders => e.credit id asset .holders - e.burned id asset 2

/-- A quantity, summed over a log. -/
def overLog {M : Type} [AddMonoid M] (f : Event → M) (log : List Event) : M := (log.map f).sum

theorem over_append {M : Type} [AddMonoid M] (f : Event → M) (log log' : List Event) :
    overLog f (log ++ log') = overLog f log + overLog f log' := by
  rw [overLog, List.map_append, List.sum_append]
  rfl

theorem over_tells (log : List Event) :
    (overLog (fun e => tells id asset e .creator) log = overLog (Event.credit id asset .creator) log
        - overLog (Event.claimed id asset 0) log - overLog (Event.burned id asset 0) log) ∧
      (overLog (fun e => tells id asset e .stakers) log = overLog (Event.credit id asset .stakers) log
        - overLog (Event.claimed id asset 1) log - overLog (Event.burned id asset 1) log
        - overLog (Event.reserved id asset) log) ∧
      (overLog (fun e => tells id asset e .platform) log = overLog (Event.credit id asset .platform) log
        + overLog (Event.converted id asset) log - overLog (Event.claimed id asset 2) log) ∧
      overLog (fun e => tells id asset e .holders) log = overLog (Event.credit id asset .holders) log
        - overLog (Event.burned id asset 2) log := by
  induction log with
  | nil => simp [overLog]
  | cons e log ih =>
    obtain ⟨hcreator, hstakers, hplatform, hholders⟩ := ih
    simp only [overLog, List.map_cons, List.sum_cons, Nat.cast_add, tells] at *
    omega

theorem over_credits (log : List Event) :
    overLog (Event.credits id asset) log = overLog (Event.credit id asset .creator) log
      + overLog (Event.credit id asset .stakers) log + overLog (Event.credit id asset .platform) log
      + overLog (Event.credit id asset .holders) log := by
  induction log with
  | nil => rfl
  | cons e log ih =>
    simp only [overLog, List.map_cons, List.sum_cons, Event.credits] at *
    omega

/-- **The position of a bucket**: what it holds beyond what the events tell. -/
def position (l : Ledger) (r : FeeRecipient) : ℤ :=
  (l.account id asset).bucketLiabilities (bucketOf r) - overLog (fun e => tells id asset e r) l.log

end Events

/-! ### Postings -/

/-- Amounts in the four buckets. -/
def amounts (creator stakers platform holders : ℤ) : FeeRecipient → ℤ
  | .creator => creator
  | .stakers => stakers
  | .platform => platform
  | .holders => holders

/-- An amount in one bucket. -/
def only (bucket : Bucket) (n : ℤ) (r : FeeRecipient) : ℤ := if bucketOf r = bucket then n else 0

theorem onAccount_only {id marketId : Bytes32} {asset feeAsset : Address} {bucket : Bucket} {n : ℤ}
    {r : FeeRecipient} : onAccount id marketId asset feeAsset (only bucket n) r
      = if (marketId = id ∧ feeAsset = asset) ∧ bucketOf r = bucket then n else 0 := by
  unfold onAccount
  split <;> simp [only, *]

/-- Nothing in a bucket. -/
@[simp] theorem only_zero {bucket : Bucket} : only bucket 0 = 0 := funext fun _ => ite_self _

@[simp] theorem onAccount_zero {id marketId : Bytes32} {asset feeAsset : Address} :
    onAccount id marketId asset feeAsset (0 : FeeRecipient → ℤ) = 0 := ite_self _

/-- The bucket that a role is paid from. -/
def burnBucket : ℕ → Bucket
  | 0 => .creatorRevenue
  | 1 => .stakerReward
  | _ => .holderReward

/-- **A sequence of changes posts**: the positions of the four buckets move by `δ`, and the
events credit `n`. -/
structure Posts (id : Bytes32) (asset : Address) (l l' : Ledger) (δ : FeeRecipient → ℤ) (n : ℕ) :
    Prop where
  position : ∀ r, position id asset l' r = position id asset l r + δ r
  credits : overLog (Event.credits id asset) l'.log = overLog (Event.credits id asset) l.log + n

namespace Posts

variable {id marketId : Bytes32} {asset feeAsset : Address} {l l' l'' : Ledger}
  {δ δ' : FeeRecipient → ℤ} {n n' : ℕ}

theorem refl : Posts id asset l l 0 0 where
  position _ := (add_zero _).symm
  credits := rfl

theorem trans (h : Posts id asset l l' δ n) (h' : Posts id asset l' l'' δ' n') :
    Posts id asset l l'' (δ + δ') (n + n') where
  position r := by rw [h'.position, h.position, Pi.add_apply, add_assoc]
  credits := by rw [h'.credits, h.credits, add_assoc]

theorem congr (h : Posts id asset l l' δ n) (hδ : ∀ r, δ r = δ' r) (hn : n = n') :
    Posts id asset l l' δ' n' := by
  obtain rfl := hn
  obtain rfl := funext hδ
  exact h

/-- A sequence that begins where nothing moves. -/
theorem quiet_trans (h : Posts id asset l l' 0 0) (h' : Posts id asset l' l'' δ n) :
    Posts id asset l l'' δ n :=
  (h.trans h').congr (fun _ => by rw [Pi.add_apply, Pi.zero_apply, zero_add]) (zero_add _)

/-- The buckets of an account move, and no event is emitted. -/
theorem put {a : Account} {total : ℕ} (δ : FeeRecipient → ℤ)
    (hδ : ∀ r, (a.bucketLiabilities (bucketOf r) : ℤ)
      = (l.account marketId feeAsset).bucketLiabilities (bucketOf r) + δ r) :
    Posts id asset l (l.put marketId feeAsset a total) (onAccount id marketId asset feeAsset δ)
      0 where
  position r := by
    rw [ProtocolFeeVault.position, ProtocolFeeVault.position, onAccount]
    split
    · rename_i h
      obtain ⟨rfl, rfl⟩ := h
      rw [Ledger.account_put_self, hδ]
      change _ - overLog _ l.log = _ - overLog _ l.log + _
      omega
    · rename_i h
      have hother : (l.put marketId feeAsset a total).account id asset = l.account id asset := by
        by_cases hid : marketId = id
        · exact Ledger.account_put_of_asset_ne fun heq => h ⟨hid, heq.symm⟩
        · exact Ledger.account_put_of_market_ne (Ne.symm hid)
      rw [hother]
      exact (add_zero _).symm
  credits := rfl

/-- An account is replaced by one with the same buckets. -/
theorem put_same {a : Account} {total : ℕ}
    (h : a.bucketLiabilities = (l.account marketId feeAsset).bucketLiabilities) :
    Posts id asset l (l.put marketId feeAsset a total) 0 0 :=
  (put 0 fun r => by rw [h]; exact (add_zero _).symm).congr
    (fun _ => by rw [onAccount_zero]) rfl

/-- An event is emitted, and no bucket moves. -/
theorem emit (e : Event) :
    Posts id asset l (l.emit e) (fun r => -tells id asset e r) (e.credits id asset) where
  position r := by
    have hlog := over_append (fun e => tells id asset e r) l.log [e]
    have hlast : overLog (fun e => tells id asset e r) [e] = tells id asset e r := List.sum_singleton
    change ((l.account id asset).bucketLiabilities (bucketOf r) : ℤ)
      - overLog (fun e => tells id asset e r) (l.log ++ [e]) = _ - overLog _ l.log + _
    rw [hlog, hlast]
    omega
  credits := by
    rw [Ledger.emit, over_append]
    exact congrArg _ List.sum_singleton

/-- An event that neither credits nor tells. -/
theorem emit_quiet {e : Event} (htells : ∀ r, tells id asset e r = 0)
    (hcredits : e.credits id asset = 0) : Posts id asset l (l.emit e) 0 0 :=
  (emit e).congr (fun r => by rw [htells]; rfl) hcredits

/-- The buckets of an account move, and an event is emitted. -/
theorem put_emit {a : Account} {total : ℕ} (e : Event) (δ : FeeRecipient → ℤ)
    (hδ : ∀ r, (a.bucketLiabilities (bucketOf r) : ℤ)
      = (l.account marketId feeAsset).bucketLiabilities (bucketOf r) + δ r) :
    Posts id asset l ((l.put marketId feeAsset a total).emit e)
      (fun r => onAccount id marketId asset feeAsset (δ r) - tells id asset e r)
      (e.credits id asset) := by
  refine ((put δ hδ).trans (emit e)).congr (fun r => ?_) (zero_add _)
  rw [Pi.add_apply, sub_eq_add_neg]
  unfold onAccount
  split <;> rfl

/-! ### The functions of the ledger -/

variable {self user : Address} {b b' : Balances} {e : Epoch} {amount : ℕ} {config : MarketConfig}
  {bucket : Bucket}

theorem creditFeeLiabilities {creator staker platform : ℕ}
    (h : creditFeeLiabilities self b l marketId feeAsset e amount creator staker platform
      = .ok l') :
    Posts id asset l l' (onAccount id marketId asset feeAsset (amounts creator staker platform 0))
        0 ∧
      creator + staker + platform = amount := by
  obtain ⟨-, -, hamount⟩ := of_creditFeeLiabilities h
  simp only [ProtocolFeeVault.creditFeeLiabilities, bind_eq_ok, pure_eq_ok, Except.ok.injEq] at h
  obtain ⟨_, -, _, -, -, -, creators, -, _, h₁, _, h₂, _, h₃, _, -, -, -, rfl⟩ := h
  obtain ⟨-, rfl⟩ := Sums.credit_eq_ok.mp h₁
  obtain ⟨-, rfl⟩ := Sums.credit_eq_ok.mp h₂
  obtain ⟨-, rfl⟩ := Sums.credit_eq_ok.mp h₃
  refine ⟨put _ fun r => ?_, hamount⟩
  cases r <;> simp [bucketOf, amounts, update]

/-- The holders' half moves from the creator, and is credited to the holders. -/
theorem assignToHolders (h : assignToHolders l marketId feeAsset e amount = .ok l') :
    Posts id asset l l' (onAccount id marketId asset feeAsset (amounts (-amount) 0 0 0))
      (onAccount id marketId asset feeAsset amount) := by
  simp only [ProtocolFeeVault.assignToHolders, bind_eq_ok, pure_eq_ok, Except.ok.injEq] at h
  obtain ⟨creators, -, _, h₁, _, h₂, holders, -, rfl⟩ := h
  obtain ⟨hle, rfl⟩ := Sums.debit_eq_ok.mp h₁
  obtain ⟨-, rfl⟩ := Sums.credit_eq_ok.mp h₂
  refine (put_emit _ (amounts (-amount) 0 0 amount) fun r => ?_).congr (fun r => ?_) ?_
  · cases r <;> simp [bucketOf, amounts, update]
    omega
  · by_cases hon : marketId = id ∧ feeAsset = asset <;> cases r <;>
      simp [onAccount, hon, amounts, tells, Event.credit, Event.claimed, Event.burned,
        Event.reserved, Event.converted]
  · simp [Event.credits, Event.credit, onAccount]

/-- A debit of a bucket. -/
theorem debitLiability (h : debitLiability l marketId feeAsset bucket amount = .ok l') :
    Posts id asset l l' (onAccount id marketId asset feeAsset (only bucket (-amount))) 0 := by
  simp only [ProtocolFeeVault.debitLiability, bind_eq_ok, pure_eq_ok, Except.ok.injEq] at h
  obtain ⟨_, hdebit, _, -, rfl⟩ := h
  obtain ⟨hle, rfl⟩ := Sums.debit_eq_ok.mp hdebit
  refine put _ fun r => ?_
  rw [only]
  dsimp only
  split
  · rename_i heq
    rw [heq, update_self]
    omega
  · rename_i hne
    rw [update_of_ne hne, add_zero]

theorem deleteCreatorLiability :
    Posts id asset l (deleteCreatorLiability l marketId feeAsset e) 0 0 :=
  put_same rfl

theorem debitHolderFee (h : debitHolderFee l marketId feeAsset e amount = .ok l') :
    Posts id asset l l' (onAccount id marketId asset feeAsset (only .holderReward (-amount)))
      0 := by
  simp only [ProtocolFeeVault.debitHolderFee, bind_eq_ok] at h
  obtain ⟨holders, -, hdebit⟩ := h
  refine quiet_trans (put_same ?_) (debitLiability hdebit)
  rfl

theorem creditTradingFeeLiabilities {creator staker platform tax holder : ℕ}
    (h : creditTradingFeeLiabilities self b l marketId feeAsset e amount creator staker platform
      tax config = .ok (l', holder)) :
    Posts id asset l l' (onAccount id marketId asset feeAsset
        (amounts (creator - holder) staker platform 0))
        (onAccount id marketId asset feeAsset holder) ∧
      creator + staker + platform = amount := by
  simp only [ProtocolFeeVault.creditTradingFeeLiabilities, bind_eq_ok] at h
  obtain ⟨-, -, l₁, hcredit, h⟩ := h
  obtain ⟨hcredited, hamount⟩ : Posts id asset l l₁ _ 0 ∧ _ := creditFeeLiabilities hcredit
  refine ⟨?_, hamount⟩
  split at h
  · simp only [bind_eq_ok, pure_eq_ok, Except.ok.injEq, Prod.mk.injEq] at h
    obtain ⟨_, hassign, rfl, rfl⟩ := h
    refine (hcredited.trans (assignToHolders hassign)).congr (fun r => ?_) (zero_add _)
    by_cases hon : marketId = id ∧ feeAsset = asset <;> cases r <;>
      simp [onAccount, hon, amounts, sub_eq_add_neg]
  · simp only [pure_eq_ok, Except.ok.injEq, Prod.mk.injEq] at h
    obtain ⟨rfl, rfl⟩ := h
    exact hcredited.congr (fun r => by simp) (ite_self _).symm

/-- A forfeiture is told by its event. -/
theorem reserveForfeiture (h : reserveForfeiture l marketId feeAsset user amount = .ok l') :
    Posts id asset l l' 0 0 := by
  unfold ProtocolFeeVault.reserveForfeiture at h
  split at h
  · obtain rfl := Except.ok.inj h
    exact refl
  · simp only [bind_eq_ok, revertIf_eq_ok, pure_eq_ok, Except.ok.injEq, not_lt] at h
    obtain ⟨-, hle, _, -, rfl⟩ := h
    refine (put_emit _ (only .stakerReward (-amount)) fun r => ?_).congr (fun r => ?_) rfl
    · cases r <;> simp [bucketOf, only, update]
      omega
    · by_cases hon : marketId = id ∧ feeAsset = asset <;> cases r <;>
        simp [onAccount, hon, only, bucketOf, tells, Event.credit, Event.claimed, Event.burned,
          Event.reserved, Event.converted]

/-- The conversion of the reserve is told by its event. -/
theorem convertForfeitureReserve (h : convertForfeitureReserve l marketId feeAsset = .ok l') :
    Posts id asset l l' 0 0 := by
  unfold ProtocolFeeVault.convertForfeitureReserve at h
  dsimp only at h
  split at h
  · obtain rfl := Except.ok.inj h
    exact refl
  · simp only [bind_eq_ok, pure_eq_ok, Except.ok.injEq] at h
    obtain ⟨_, hcredit, rfl⟩ := h
    obtain ⟨-, rfl⟩ := Sums.credit_eq_ok.mp hcredit
    refine (put_emit _ (only .platformRevenue (l.account marketId feeAsset).forfeitureReserve)
      fun r => ?_).congr (fun r => ?_) rfl
    · cases r <;> simp [bucketOf, only, update]
    · by_cases hon : marketId = id ∧ feeAsset = asset <;> cases r <;>
        simp [onAccount, hon, only, bucketOf, tells, Event.credit, Event.claimed, Event.burned,
          Event.reserved, Event.converted]

/-! ### Credits -/

variable {platform : Platform} {v : Immutables} {c : Surroundings} {s s' : State}
  {caller : Address} {feeId : Bytes32} {value : MarketView} {G : Type} {code : GaugeCode G}
  {g g' : G} {gas : StakerGas}

theorem abandonStakerFee {record : V4CreditRecord} {attempt : StakerAttempt}
    (h : abandonStakerFee v l record attempt amount = .ok l') : Posts id asset l l' 0 0 := by
  unfold ProtocolFeeVault.abandonStakerFee at h
  split at h
  · simp only [bind_eq_ok, pure_eq_ok, Except.ok.injEq] at h
    obtain ⟨l₁, hreserve, rfl⟩ := h
    have hreserved : Posts id asset l l₁ 0 0 := reserveForfeiture hreserve
    exact hreserved.quiet_trans (emit_quiet (fun r => by cases r <;> rfl) rfl)
  · obtain rfl := Except.ok.inj h
    exact refl

/-- **The attribution of a swap fee**: all of it is credited, and every bucket is told. -/
theorem settleV4Attribution {record : V4CreditRecord} {tax : ℕ} {calls : GaugeCalls G}
    (h : settleV4Attribution calls v c gas s g record value tax = .ok (l', g')) :
    Posts id asset s.ledger l' 0
      (onAccount id record.marketId asset record.feeAsset record.nonLpAmount) := by
  simp only [ProtocolFeeVault.settleV4Attribution, bind_eq_ok, pure_eq_ok, Except.ok.injEq,
    Prod.mk.injEq, usub_eq_ok] at h
  obtain ⟨_, -, _, -, _, -, buckets, -, creator, -, -, -, ⟨l₁, holder⟩, hcredit, l₂, habandon, _,
    ⟨hle, rfl⟩, rfl, -⟩ := h
  dsimp only at hle
  obtain ⟨hcredited, hamount⟩ : Posts id asset s.ledger l₁ _ _ ∧ _ :=
    creditTradingFeeLiabilities hcredit
  have habandoned : Posts id asset l₁ l₂ 0 0 := abandonStakerFee habandon
  refine ((hcredited.trans habandoned).trans (emit _)).congr (fun r => ?_) ?_
  · by_cases hon : record.marketId = id ∧ record.feeAsset = asset <;> cases r <;>
      simp [onAccount, hon, amounts, tells, Event.credit, Event.claimed, Event.burned,
        Event.reserved, Event.converted]
    omega
  · by_cases hon : record.marketId = id ∧ record.feeAsset = asset <;>
      simp [onAccount, hon, Event.credits, Event.credit]
    omega

theorem finalizeV4Credit {base totalFee lpAmount nonLpAmount feeNonce : ℕ} {calls : GaugeCalls G}
    (h : finalizeV4Credit calls platform v c gas caller s g marketId feeAsset base totalFee lpAmount
      nonLpAmount feeNonce feeId = .ok (s', g')) :
    Posts id asset s.ledger s'.ledger 0 (onAccount id marketId asset feeAsset nonLpAmount) := by
  simp only [ProtocolFeeVault.finalizeV4Credit, bind_eq_ok, pure_eq_ok, Except.ok.injEq,
    Prod.mk.injEq] at h
  obtain ⟨-, -, -, -, _, -, -, -, _, -, ⟨l, _⟩, hsettle, rfl, -⟩ := h
  have hsettled : Posts id asset s.ledger l 0 (onAccount id marketId asset feeAsset nonLpAmount) :=
    settleV4Attribution hsettle
  exact hsettled

/-- **The credit of a sweep**: all of it is credited, and every bucket is told. -/
theorem finalizeCurveCredit {credit : Curve.CurveCredit}
    (h : finalizeCurveCredit platform v c caller s amount credit = .ok s') :
    Posts id asset s.ledger s'.ledger 0
      (onAccount id credit.marketId asset credit.quoteAsset credit.amount) := by
  simp only [ProtocolFeeVault.finalizeCurveCredit, recordExactCurveCredit, bind_eq_ok, pure_eq_ok,
    Except.ok.injEq, usub_eq_ok] at h
  obtain ⟨-, -, _, -, -, -, -, -, -, -, _, -, _, -, _, -, l,
    ⟨⟨l₁, holder⟩, hcredit, _, ⟨hle, rfl⟩, rfl⟩, rfl⟩ := h
  obtain ⟨hcredited, hamount⟩ : Posts id asset s.ledger l₁ _ _ ∧ _ :=
    creditTradingFeeLiabilities hcredit
  refine (hcredited.trans (emit _)).congr (fun r => ?_) ?_
  · by_cases hon : credit.marketId = id ∧ credit.quoteAsset = asset <;> cases r <;>
      simp [onAccount, hon, amounts, tells, Event.credit, Event.claimed, Event.burned,
        Event.reserved, Event.converted]
    omega
  · by_cases hon : credit.marketId = id ∧ credit.quoteAsset = asset <;>
      simp [onAccount, hon, Event.credits, Event.credit]
    omega

/-! ### The platform, and forfeitures -/

theorem coverAssetDeficit {sent : ℕ}
    (h : coverAssetDeficit v c s caller sent feeAsset amount = .ok (s', b')) :
    Posts id asset s.ledger s'.ledger 0 0 := by
  simp only [ProtocolFeeVault.coverAssetDeficit, bind_eq_ok, pure_eq_ok, Except.ok.injEq,
    Prod.mk.injEq] at h
  obtain ⟨_, -, -, -, -, -, _, -, -, -, _, -, rfl, rfl⟩ := h
  exact emit_quiet (fun r => by cases r <;> rfl) rfl

theorem payPlatform (h : payPlatform v c s l marketId feeAsset = .ok (l', b')) :
    Posts id asset l l' 0 0 := by
  unfold ProtocolFeeVault.payPlatform at h
  dsimp only at h
  split at h
  · simp only [bind_eq_ok, pure_eq_ok, Except.ok.injEq, Prod.mk.injEq] at h
    obtain ⟨l₁, hdebit, _, -, rfl, -⟩ := h
    have hdebited : Posts id asset l l₁ _ 0 := debitLiability hdebit
    refine (hdebited.trans (emit _)).congr (fun r => ?_) rfl
    by_cases hon : marketId = id ∧ feeAsset = asset <;> cases r <;>
      simp [onAccount, hon, only, bucketOf, tells, Event.credit, Event.claimed, Event.burned,
        Event.reserved, Event.converted]
  · obtain ⟨rfl, -⟩ := Prod.mk.inj (Except.ok.inj h)
    exact refl

theorem claimPlatform (h : claimPlatform v c s marketId feeAsset = .ok (s', b')) :
    Posts id asset s.ledger s'.ledger 0 0 := by
  simp only [ProtocolFeeVault.claimPlatform, bind_eq_ok, pure_eq_ok, Except.ok.injEq,
    Prod.mk.injEq] at h
  obtain ⟨-, -, _, -, l₁, hconvert, -, -, ⟨l₂, _⟩, hpay, rfl, rfl⟩ := h
  have hconverted : Posts id asset s.ledger l₁ 0 0 := convertForfeitureReserve hconvert
  exact hconverted.quiet_trans (payPlatform hpay)

theorem recordForfeiture {quoteAmount memeAmount : ℕ}
    (h : recordForfeiture v c s caller marketId user quoteAmount memeAmount = .ok s') :
    Posts id asset s.ledger s'.ledger 0 0 := by
  simp only [ProtocolFeeVault.recordForfeiture, bind_eq_ok, pure_eq_ok, Except.ok.injEq] at h
  obtain ⟨-, -, _, -, -, -, -, -, -, -, l₁, hquote, l₂, hmeme, -, -, -, -, rfl⟩ := h
  have hquote' : Posts id asset s.ledger l₁ 0 0 := reserveForfeiture hquote
  exact hquote'.quiet_trans (reserveForfeiture hmeme)

/-! ### Claims of users -/

/-- A burn for a role is told. -/
theorem burnMemeFees {beneficiary : Address} {role : ℕ} (hrole : role < 3)
    (h : burnMemeFees self b l marketId feeAsset beneficiary role e amount = .ok (l', b')) :
    Posts id asset l l' (onAccount id marketId asset feeAsset (only (burnBucket role) amount))
      0 := by
  obtain ⟨-, -, rfl⟩ := of_burnMemeFees h
  refine (emit _).congr (fun r => ?_) rfl
  obtain rfl | rfl | rfl : role = 0 ∨ role = 1 ∨ role = 2 := by omega
  all_goals by_cases hon : marketId = id ∧ feeAsset = asset <;> cases r <;>
    simp [onAccount, hon, only, bucketOf, burnBucket, tells, Event.credit, Event.claimed,
      Event.burned, Event.reserved, Event.converted]

/-- A claim is told. -/
theorem emit_feeClaimed {beneficiary : Address} {role : ℕ} (hrole : role < 2) :
    Posts id asset l (l.emit (.feeClaimed role beneficiary marketId e feeAsset amount))
      (onAccount id marketId asset feeAsset (only (burnBucket role) amount)) 0 := by
  refine (emit _).congr (fun r => ?_) rfl
  obtain rfl | rfl : role = 0 ∨ role = 1 := by omega
  all_goals by_cases hon : marketId = id ∧ feeAsset = asset <;> cases r <;>
    simp [onAccount, hon, only, bucketOf, burnBucket, tells, Event.credit, Event.claimed,
      Event.burned, Event.reserved, Event.converted]

/-- A selected asset is debited; of an asset that is not selected nothing is due. -/
theorem debitSelected {selected : Bool} (hselected : selected = false → amount = 0)
    (h : debitSelected l marketId feeAsset bucket selected amount = .ok l') :
    Posts id asset l l' (onAccount id marketId asset feeAsset (only bucket (-amount))) 0 := by
  unfold ProtocolFeeVault.debitSelected at h
  split at h
  · exact debitLiability h
  · rename_i hnot
    obtain rfl := Except.ok.inj h
    rw [hselected (Bool.eq_false_of_not_eq_true hnot)]
    refine refl.congr (fun r => ?_) rfl
    rw [Nat.cast_zero, neg_zero, only_zero, onAccount_zero]

/-- Both assets of a market are debited. -/
theorem debitBoth {withQuote withMeme : Bool} {q m : ℕ} {l₁ : Ledger}
    (hquote : withQuote = false → q = 0) (hmeme : withMeme = false → m = 0)
    (h : ProtocolFeeVault.debitSelected l marketId config.quoteAsset bucket withQuote q = .ok l₁)
    (h' : ProtocolFeeVault.debitSelected l₁ marketId config.memeToken bucket withMeme m
      = .ok l') :
    Posts id asset l l' (onAccount id marketId asset config.quoteAsset (only bucket (-q))
      + onAccount id marketId asset config.memeToken (only bucket (-m))) 0 := by
  have hdebit : Posts id asset l l₁ _ 0 := debitSelected hquote h
  exact hdebit.trans (debitSelected hmeme h')

theorem takeCreator (selected : Bool) :
    Posts id asset l (takeCreator l marketId feeAsset e selected).1 0 0 := by
  cases selected with
  | true => exact deleteCreatorLiability
  | false => exact refl

theorem takeCreator_eq_zero {selected : Bool} (h : selected = false) :
    (ProtocolFeeVault.takeCreator l marketId feeAsset e selected).2 = 0 := by
  rw [h]
  rfl

theorem consumeUserRewards {role q m : ℕ} {assets : BitVec 8} (hrole : role < 2)
    (h : consumeUserRewards c code.calls caller l g marketId config role e assets
      = .ok (l', g', q, m)) :
    Posts id asset l l'
      (onAccount id marketId asset config.quoteAsset (only (burnBucket role) (-q))
        + onAccount id marketId asset config.memeToken (only (burnBucket role) (-m))) 0 := by
  unfold ProtocolFeeVault.consumeUserRewards at h
  split at h
  · rename_i hzero
    obtain rfl := hzero
    simp only [consumeCreatorRewards, bind_eq_ok, pure_eq_ok, Except.ok.injEq, Prod.mk.injEq] at h
    obtain ⟨⟨l₁, _, _⟩, ⟨-, -, l₂, hquote, l₃, hmeme, rfl, rfl, rfl⟩, rfl, -, rfl, rfl⟩ := h
    -- the two deletions come first, then the two debits
    have hdebits : Posts id asset _ l₁ _ 0 :=
      debitBoth takeCreator_eq_zero takeCreator_eq_zero hquote hmeme
    exact ((takeCreator _).quiet_trans (takeCreator _)).quiet_trans hdebits
  · simp only [consumeStakerRewards, bind_eq_ok, pure_eq_ok, Except.ok.injEq, Prod.mk.injEq] at h
    obtain ⟨-, -, ⟨_, q', m'⟩, hconsume, l₁, hquote, l₂, hmeme, rfl, -, rfl, rfl⟩ := h
    obtain ⟨hq, hm⟩ := code.of_consumeClaimableAssets hconsume
    obtain rfl : role = 1 := by omega
    exact debitBoth hq hm hquote hmeme

/-- The payment in the token: what is not paid is burned, which is told. -/
theorem payMeme {role paid : ℕ} (hrole : role < 2)
    (h : payMeme v caller l b marketId config role e amount = .ok (l', b', paid)) :
    Posts id asset l l' (onAccount id marketId asset config.memeToken
      (only (burnBucket role) (amount - paid))) 0 := by
  have hnone : Posts id asset l l (onAccount id marketId asset config.memeToken
      (only (burnBucket role) 0)) 0 := by
    rw [only_zero, onAccount_zero]
    exact refl
  unfold ProtocolFeeVault.payMeme at h
  split at h
  · rename_i hzero
    obtain ⟨rfl, -, rfl⟩ : l = l' ∧ b = b' ∧ 0 = paid := by simpa using h
    rwa [hzero, sub_self]
  · split at h
    · simp only [bind_eq_ok, pure_eq_ok, Except.ok.injEq, Prod.mk.injEq] at h
      obtain ⟨⟨l₁, b₁⟩, hburn, rfl, rfl, rfl⟩ := h
      rw [Nat.cast_zero, sub_zero]
      exact burnMemeFees (by omega) hburn
    · simp only [bind_eq_ok, pure_eq_ok, Except.ok.injEq, Prod.mk.injEq] at h
      obtain ⟨b₁, -, rfl, rfl, rfl⟩ := h
      rwa [sub_self]

/-- A claim of one asset, if there is something to claim. -/
theorem emit_claim {beneficiary : Address} {role : ℕ} (hrole : role < 2) :
    Posts id asset l (if amount ≠ 0
        then l.emit (.feeClaimed role beneficiary marketId e feeAsset amount) else l)
      (onAccount id marketId asset feeAsset (only (burnBucket role) amount)) 0 := by
  split
  · exact emit_feeClaimed hrole
  · rename_i hzero
    rw [not_not] at hzero
    rw [hzero, Nat.cast_zero, only_zero, onAccount_zero]
    exact refl

theorem emitClaims {role q m : ℕ} (hrole : role < 2) :
    Posts id asset l (emitClaims l caller marketId config role e q m)
      (onAccount id marketId asset config.quoteAsset (only (burnBucket role) q)
        + onAccount id marketId asset config.memeToken (only (burnBucket role) m)) 0 := by
  have hlast : ∀ l, Posts id asset l (l.emit (.userRewardsClaimed marketId caller role e q m)) 0 0 :=
    fun l => emit_quiet (fun r => by cases r <;> rfl) rfl
  refine (((emit_claim hrole).trans (emit_claim hrole)).trans (hlast _)).congr (fun r => ?_) rfl
  rw [Pi.add_apply, Pi.zero_apply, add_zero]

/-- **A claim of a user**: what is debited is paid or burned, and told. -/
theorem claimUserRewards {role q m : ℕ} {assets : BitVec 8}
    (h : claimUserRewards v c s code.calls caller g marketId role e assets
      = .ok (s', b', g', q, m)) : Posts id asset s.ledger s'.ledger 0 0 := by
  simp only [ProtocolFeeVault.claimUserRewards, bind_eq_ok, pure_eq_ok, Except.ok.injEq,
    Prod.mk.injEq, revertIf_eq_ok, not_or] at h
  obtain ⟨-, ⟨-, -, hle, -⟩, -, htwo, -, -, value, -, -, -, -, -, ⟨l₁, _, q', m'⟩, hconsume, b₁, -,
    ⟨l₂, _, _⟩, hmeme, -, -, rfl, rfl, -, rfl, rfl⟩ := h
  have hrole : role < 2 := by omega
  have hconsumed : Posts id asset s.ledger l₁ _ 0 := consumeUserRewards hrole hconsume
  have hpaid : Posts id asset l₁ l₂ _ 0 := payMeme hrole hmeme
  refine ((hconsumed.trans hpaid).trans (emitClaims hrole)).congr (fun r => ?_) rfl
  simp only [Pi.add_apply, onAccount_only, Pi.zero_apply]
  split_ifs <;> omega

/-! ### The holders -/

theorem settleHolderMemeBurn
    (h : settleHolderMemeBurn v l b marketId config = .ok (l', b', amount)) :
    Posts id asset l l' 0 0 := by
  unfold ProtocolFeeVault.settleHolderMemeBurn at h
  dsimp only at h
  split at h
  · obtain ⟨rfl, -, -⟩ := Prod.mk.inj (Except.ok.inj h)
    exact refl
  · simp only [bind_eq_ok, pure_eq_ok, Except.ok.injEq, Prod.mk.injEq] at h
    obtain ⟨-, -, l₁, hdebit, ⟨l₂, b₂⟩, hburn, rfl, -, -⟩ := h
    have hdebited : Posts id asset l l₁ _ 0 := debitHolderFee hdebit
    refine (hdebited.trans (burnMemeFees (by decide) hburn)).congr (fun r => ?_) rfl
    simp only [Pi.add_apply, onAccount_only, Pi.zero_apply, burnBucket]
    split_ifs <;> omega

theorem fundHolderQuote {quote distributor : Address}
    (h : fundHolderQuote v l b marketId e quote distributor amount = .ok (l', b')) :
    Posts id asset l l' (onAccount id marketId asset quote (only .holderReward (-amount))) 0 := by
  unfold ProtocolFeeVault.fundHolderQuote at h
  split at h
  · rename_i hzero
    obtain ⟨rfl, -⟩ := Prod.mk.inj (Except.ok.inj h)
    rw [hzero, Nat.cast_zero, neg_zero, only_zero, onAccount_zero]
    exact refl
  · simp only [bind_eq_ok, pure_eq_ok, Except.ok.injEq, Prod.mk.injEq] at h
    obtain ⟨-, -, l₁, hdebit, _, -, -, -, -, -, rfl, -⟩ := h
    exact debitHolderFee hdebit

theorem fundHolderMeme {token distributor : Address}
    (h : fundHolderMeme v l b marketId token distributor amount = .ok (l', b')) :
    Posts id asset l l' (onAccount id marketId asset token (only .holderReward (-amount))) 0 := by
  unfold ProtocolFeeVault.fundHolderMeme at h
  split at h
  · rename_i hzero
    obtain ⟨rfl, -⟩ := Prod.mk.inj (Except.ok.inj h)
    rw [hzero, Nat.cast_zero, neg_zero, only_zero, onAccount_zero]
    exact refl
  · simp only [bind_eq_ok, pure_eq_ok, Except.ok.injEq, Prod.mk.injEq] at h
    obtain ⟨-, -, l₁, hdebit, _, -, -, -, rfl, -⟩ := h
    exact debitHolderFee hdebit

end Posts

/-! ### What the calls move -/

/-- A movement that the log of the vault does not tell: a fee that comes in, or a payment to
the distributor. -/
inductive Movement
  | curveFee (marketId : Bytes32) (asset : Address) (amount : ℕ)
  | v4Fee (marketId : Bytes32) (asset : Address) (amount : ℕ)
  | funded (marketId : Bytes32) (asset : Address) (amount : ℕ)

section Movements

variable (id : Bytes32) (asset : Address)

/-- The curve fees that are swept. -/
def Movement.swept : Movement → ℕ
  | .curveFee marketId a amount => onAccount id marketId asset a amount
  | _ => 0

/-- The swap fees that do not go to the liquidity. -/
def Movement.nonLp : Movement → ℕ
  | .v4Fee marketId a amount => onAccount id marketId asset a amount
  | _ => 0

/-- The payments to the distributor. -/
def Movement.paid : Movement → ℕ
  | .funded marketId a amount => onAccount id marketId asset a amount
  | _ => 0

/-- A quantity, summed over movements. -/
def overAll (f : Movement → ℕ) (moves : List Movement) : ℕ := (moves.map f).sum

theorem overAll_append (f : Movement → ℕ) (moves moves' : List Movement) :
    overAll f (moves ++ moves') = overAll f moves + overAll f moves' := by
  rw [overAll, List.map_append, List.sum_append]
  rfl

variable (v : Immutables) (c : Surroundings)

/-- What a funding pays to the distributor: `HolderAssetFunded` tells it there. A market that
burns its token fees pays none in the token. -/
def fundingMovements (marketId : Bytes32) (n : ℕ) (amount : ℕ) : List Movement :=
  match MarketRegistry.market c.registries marketId with
  | .error _ => []
  | .ok value =>
    if n = 1 then [.funded marketId value.config.quoteAsset amount]
    else if value.config.burnMemeFees then []
    else [.funded marketId value.config.memeToken amount]

/-- What an item of a batch pays. -/
def attemptMovements (s : State) (enough : Bool) (b : Balances) (marketId : Bytes32) (n : ℕ) :
    List Movement :=
  let c := c.withBalances b
  match ifGas enough (if n = 1 then fundHolderRewards v c s marketId 1
    else fundHolderMemeRewards v c s marketId) with
  | .ok (_, _, amount) => fundingMovements c marketId n amount
  | .error _ => []

/-- What a batch pays, item by item. -/
def itemsMovements (gas : ℕ → ℕ → FundingGas) :
    List (ℕ × Bytes32 × ℕ) → State → Balances → List Movement
  | [], _, _ => []
  | (i, marketId, n) :: items, s, b =>
    if (gas i n).enough then
      let (s', b') := attemptHolderFunding v c s (gas i n).attempt b marketId n
      attemptMovements v c s (gas i n).attempt b marketId n ++ itemsMovements gas items s' b'
    else []

end Movements

/-- **The ledger follows its events and the movements.** -/
abbrev Follows (id : Bytes32) (asset : Address) (l l' : Ledger) (moves : List Movement) : Prop :=
  Posts id asset l l' (only .holderReward (-overAll (Movement.paid id asset) moves))
    (overAll (Movement.swept id asset) moves + overAll (Movement.nonLp id asset) moves)

namespace Follows

variable {id marketId : Bytes32} {asset : Address} {l l' l'' : Ledger} {moves moves' : List Movement}
  {v : Immutables} {c : Surroundings} {s s' : State} {b b' : Balances} {amount : ℕ} {e : Epoch}

theorem of_quiet (h : Posts id asset l l' 0 0) : Follows id asset l l' [] :=
  h.congr (fun r => by simp [overAll]) rfl

theorem append (h : Follows id asset l l' moves) (h' : Follows id asset l' l'' moves') :
    Follows id asset l l'' (moves ++ moves') := by
  refine (h.trans h').congr (fun r => ?_) ?_
  · rw [Pi.add_apply, only, only, only, overAll_append]
    split_ifs <;> omega
  · rw [overAll_append, overAll_append]
    omega

/-- A payment to the distributor, taken off the holders. -/
theorem of_funded {a : Address}
    (h : Posts id asset l l' (onAccount id marketId asset a (only .holderReward (-amount))) 0) :
    Follows id asset l l' [.funded marketId a amount] := by
  refine h.congr (fun r => ?_) rfl
  rw [onAccount_only, only]
  simp only [overAll, Movement.paid, onAccount, List.map_cons, List.map_nil, List.sum_singleton]
  split_ifs <;> simp_all

theorem fundHolderRewards (h : fundHolderRewards v c s marketId e = .ok (s', b', amount)) :
    Follows id asset s.ledger s'.ledger (fundingMovements c marketId 1 amount) := by
  simp only [ProtocolFeeVault.fundHolderRewards, bind_eq_ok] at h
  obtain ⟨-, -, value, hmarket, _, -, ⟨l₁, b₁, _⟩, hburn, ⟨l₂, b₂⟩, hfund, h⟩ := h
  have hburned : Posts id asset s.ledger l₁ 0 0 := Posts.settleHolderMemeBurn hburn
  have hfunded := hburned.quiet_trans (Posts.fundHolderQuote hfund)
  have hmoves : fundingMovements c marketId 1 amount
      = [.funded marketId value.config.quoteAsset amount] := by
    rw [fundingMovements, hmarket]
    rfl
  rw [hmoves]
  split at h <;> simp only [bind_eq_ok, pure_eq_ok, Except.ok.injEq, Prod.mk.injEq] at h
  · obtain ⟨-, -, rfl, -, rfl⟩ := h
    exact of_funded hfunded
  · obtain ⟨rfl, -, rfl⟩ := h
    exact of_funded hfunded

theorem fundHolderMemeRewards {n : ℕ} (hn : n ≠ 1)
    (h : fundHolderMemeRewards v c s marketId = .ok (s', b', amount)) :
    Follows id asset s.ledger s'.ledger (fundingMovements c marketId n amount) := by
  simp only [ProtocolFeeVault.fundHolderMemeRewards, bind_eq_ok] at h
  obtain ⟨-, -, value, hmarket, _, -, h⟩ := h
  rw [fundingMovements, hmarket]
  dsimp only
  rw [if_neg hn]
  split at h <;> simp only [bind_eq_ok, pure_eq_ok, Except.ok.injEq, Prod.mk.injEq] at h
  · rename_i hburns
    obtain ⟨⟨l₁, b₁, _⟩, hburn, rfl, -, -⟩ := h
    rw [if_pos hburns]
    exact of_quiet (Posts.settleHolderMemeBurn hburn)
  · rename_i hburns
    obtain ⟨⟨l₁, b₁⟩, hfund, rfl, -, rfl⟩ := h
    rw [if_neg hburns]
    exact of_funded (Posts.fundHolderMeme hfund)

/-- The result of an item is told by an event that credits nothing. -/
theorem emit_result {n status : ℕ} (h : Follows id asset l l' moves) :
    Follows id asset l (l'.emit (.holderFundingResult marketId n status amount)) moves := by
  have hquiet : Follows id asset l' (l'.emit (.holderFundingResult marketId n status amount)) [] :=
    of_quiet (Posts.emit_quiet (fun r => by cases r <;> rfl) rfl)
  simpa using h.append hquiet

theorem attemptHolderFunding {enough : Bool} {n : ℕ} :
    Follows id asset s.ledger (attemptHolderFunding v c s enough b marketId n).1.ledger
      (attemptMovements v c s enough b marketId n) := by
  unfold ProtocolFeeVault.attemptHolderFunding attemptMovements
  dsimp only
  cases hfund : ifGas enough (if n = 1
    then ProtocolFeeVault.fundHolderRewards v (c.withBalances b) s marketId 1
    else ProtocolFeeVault.fundHolderMemeRewards v (c.withBalances b) s marketId) with
  | error _ => exact emit_result (of_quiet Posts.refl)
  | ok result =>
    obtain ⟨s₁, b₁, amount⟩ := result
    refine emit_result ?_
    have hresult := (ifGas_eq_ok.mp hfund).2
    split at hresult
    · rename_i hn
      obtain rfl := hn
      exact fundHolderRewards hresult
    · rename_i hn
      exact fundHolderMemeRewards hn hresult

/-- **A batch**, by induction on its items. -/
theorem fundItems {gas : ℕ → ℕ → FundingGas} {length : ℕ} (items : List (ℕ × Bytes32 × ℕ)) :
    Follows id asset s.ledger (fundItems v c gas length items s b).1.1.ledger
      (itemsMovements v c gas items s b) := by
  induction items generalizing s b with
  | nil => exact of_quiet Posts.refl
  | cons item items ih =>
    obtain ⟨i, marketId, n⟩ := item
    unfold ProtocolFeeVault.fundItems itemsMovements
    split
    · exact attemptHolderFunding.append ih
    · exact of_quiet (Posts.emit_quiet (fun r => by cases r <;> rfl) rfl)

end Follows

/-! ### Every step, and every run -/

section Runs

variable {G : Type} (platform : Platform) (bindings : MarketRegistry.Bindings) (v : Immutables)
  (calls : GaugeCalls G)

/-- **One step, with its movements.** -/
inductive Traced : System G → List Movement → System G → Prop
  | beginV4Credit {y : System G} {s : State} (caller : Address) (marketId : Bytes32)
      (feeAsset : Address) (amount sourceVersion : ℕ) (feeId : Bytes32)
      (h : beginV4Credit v y.around.toWorld caller y.vault marketId feeAsset amount sourceVersion
        feeId = .ok s) :
      Traced y [] { y with vault := s }
  | finalizeV4Credit {y : System G} {s : State} {g : G} (gas : StakerGas) (caller : Address)
      (marketId : Bytes32) (feeAsset : Address) (base totalFee lpAmount nonLpAmount feeNonce : ℕ)
      (feeId : Bytes32)
      (h : finalizeV4Credit calls platform v y.around gas caller y.vault y.gauges marketId feeAsset
        base totalFee lpAmount nonLpAmount feeNonce feeId = .ok (s, g)) :
      Traced y [.v4Fee marketId feeAsset nonLpAmount] { y with vault := s, gauges := g }
  | beginCurveCredit {y : System G} {s : State} (caller : Address) (credit : Curve.CurveCredit)
      (h : beginCurveCredit platform v y.around caller y.vault credit = .ok s) :
      Traced y [] { y with vault := s }
  | finalizeCurveCredit {y : System G} {s : State} (caller : Address) (value : ℕ)
      (credit : Curve.CurveCredit)
      (h : finalizeCurveCredit platform v y.around caller y.vault value credit = .ok s) :
      Traced y [.curveFee credit.marketId credit.quoteAsset credit.amount] { y with vault := s }
  | coverAssetDeficit {y : System G} {s : State} {b : Balances} (caller : Address) (value : ℕ)
      (asset : Address) (amount : ℕ) (hcaller : caller ≠ v.self)
      (h : coverAssetDeficit v y.around y.vault caller value asset amount = .ok (s, b)) :
      Traced y [] (y.after s b)
  | claimPlatform {y : System G} {s : State} {b : Balances} (marketId : Bytes32)
      (feeAsset : Address)
      (h : claimPlatform v y.around y.vault marketId feeAsset = .ok (s, b)) :
      Traced y [] (y.after s b)
  | recordForfeiture {y : System G} {s : State} (caller : Address) (marketId : Bytes32)
      (user : Address) (quoteAmount memeAmount : ℕ)
      (h : recordForfeiture v y.around y.vault caller marketId user quoteAmount memeAmount
        = .ok s) :
      Traced y [] { y with vault := s }
  | claimUserRewards {y : System G} {s : State} {b : Balances} {g : G} {q m : ℕ}
      (caller : Address) (marketId : Bytes32) (role : ℕ) (epoch : Epoch) (assets : BitVec 8)
      (hcaller : caller ≠ v.self)
      (h : claimUserRewards v y.around y.vault calls caller y.gauges marketId role epoch assets
        = .ok (s, b, g, q, m)) :
      Traced y [] { y.after s b with gauges := g }
  | fundHolderRewards {y : System G} {s : State} {b : Balances} {amount : ℕ} (marketId : Bytes32)
      (epochId : Epoch)
      (h : fundHolderRewards v y.around y.vault marketId epochId = .ok (s, b, amount)) :
      Traced y (fundingMovements y.around marketId 1 amount) (y.after s b)
  | fundHolderMemeRewards {y : System G} {s : State} {b : Balances} {amount : ℕ}
      (marketId : Bytes32)
      (h : fundHolderMemeRewards v y.around y.vault marketId = .ok (s, b, amount)) :
      Traced y (fundingMovements y.around marketId 2 amount) (y.after s b)
  | fundHolderRewardsBatch {y : System G} {s : State} {b : Balances} {stop : ℕ × ℕ}
      (gas : ℕ → ℕ → FundingGas) (marketIds : List Bytes32) (assets : BitVec 8) (gasPerAsset : ℕ)
      (h : fundHolderRewardsBatch v y.around y.vault gas marketIds assets gasPerAsset
        = .ok ((s, b), stop)) :
      Traced y (itemsMovements v y.around gas (fundingItems marketIds assets) y.vault
        y.around.balances) (y.after s b)
  | treasury (y : System G) (treasury : Address) (h : treasury ≠ v.self) :
      Traced y [] { y with vault := { y.vault with feePlatformTreasury := treasury } }
  | endTransaction (y : System G) :
      Traced y [] { y with vault := { y.vault with session := Session.start } }
  | environment {y : System G} (c : Surroundings) (g : G)
      (h : World.Evolves platform bindings (· = v.self) y.around.toWorld c.toWorld) :
      Traced y [] { y with around := c, gauges := g }

variable {platform bindings v calls} {y y' : System G}

variable {code : GaugeCode G} {id : Bytes32} {asset : Address} {moves : List Movement}

/-- **After one step** the ledger has followed its events and the movements. -/
theorem follows_of_traced (h : Traced platform bindings v code.calls y moves y') :
    Follows id asset y.vault.ledger y'.vault.ledger moves := by
  cases h with
  | beginV4Credit caller marketId feeAsset amount sourceVersion feeId h =>
    simp only [beginV4Credit, bind_eq_ok, pure_eq_ok, Except.ok.injEq] at h
    obtain ⟨-, -, -, -, -, -, -, -, rfl⟩ := h
    exact Follows.of_quiet Posts.refl
  | finalizeV4Credit gas caller marketId feeAsset base totalFee lp nonLp feeNonce feeId h =>
    have hposts : Posts id asset y.vault.ledger _ 0 _ := Posts.finalizeV4Credit h
    exact hposts.congr (fun r => by simp [overAll, Movement.paid])
      (by simp [overAll, Movement.swept, Movement.nonLp])
  | beginCurveCredit caller credit h =>
    simp only [beginCurveCredit, bind_eq_ok, pure_eq_ok, Except.ok.injEq] at h
    obtain ⟨-, -, -, -, -, -, -, -, rfl⟩ := h
    exact Follows.of_quiet Posts.refl
  | finalizeCurveCredit caller value credit h =>
    have hposts : Posts id asset y.vault.ledger _ 0 _ := Posts.finalizeCurveCredit h
    exact hposts.congr (fun r => by simp [overAll, Movement.paid])
      (by simp [overAll, Movement.swept, Movement.nonLp])
  | coverAssetDeficit caller value asset amount hcaller h =>
    exact Follows.of_quiet (Posts.coverAssetDeficit h)
  | claimPlatform marketId feeAsset h => exact Follows.of_quiet (Posts.claimPlatform h)
  | recordForfeiture caller marketId user quoteAmount memeAmount h =>
    exact Follows.of_quiet (Posts.recordForfeiture h)
  | claimUserRewards caller marketId role epoch assets hcaller h =>
    exact Follows.of_quiet (Posts.claimUserRewards h)
  | fundHolderRewards marketId epochId h => exact Follows.fundHolderRewards h
  | fundHolderMemeRewards marketId h => exact Follows.fundHolderMemeRewards (by decide) h
  | fundHolderRewardsBatch gas marketIds assets gasPerAsset h =>
    simp only [fundHolderRewardsBatch, bind_eq_ok, pure_eq_ok, Except.ok.injEq] at h
    obtain ⟨-, -, -, -, h⟩ := h
    have hitems : Follows id asset y.vault.ledger
        (fundItems v y.around gas marketIds.length (fundingItems marketIds assets) y.vault
          y.around.balances).1.1.ledger
        (itemsMovements v y.around gas (fundingItems marketIds assets) y.vault
          y.around.balances) := Follows.fundItems _
    rw [h] at hitems
    exact hitems
  | treasury treasury h => exact Follows.of_quiet Posts.refl
  | endTransaction => exact Follows.of_quiet Posts.refl
  | environment c g h => exact Follows.of_quiet Posts.refl

/-- **After a run** the ledger has followed its events and the movements. -/
theorem follows_of_run {moves : List (List Movement)}
    (h : Transition.Run (Traced platform bindings v code.calls) y moves y') :
    Follows id asset y.vault.ledger y'.vault.ledger moves.flatten := by
  induction h with
  | refl => exact Follows.of_quiet Posts.refl
  | snoc _ hstep ih =>
    rw [List.flatten_append, List.flatten_singleton]
    exact ih.append (follows_of_traced hstep)

/-- The positions of an empty ledger. -/
theorem position_empty (r : FeeRecipient) : position id asset Ledger.empty r = 0 := rfl

/-- **The events reconstruct the fee ledger.** After every run of the vault, wherever its
events are logged, the projector accepts all of them, and for every market and asset their
credits – less what the events claim, burn and reserve, and with what they convert – are the
buckets of the creator, the stakers and the platform; those of the holders are so too, less
what was paid to the distributor. The credits of the four roles together are the curve fees
that were swept and the swap fees that did not go to the liquidity. -/
theorem fee_roles {moves : List (List Movement)} (hinit : Init v y)
    (hrun : Transition.Run (Traced platform bindings v code.calls) y moves y')
    (logs : List RpcLog) (hlogs : logs.length = y'.vault.ledger.log.length) :
    ∃ credits, (List.zipWith Event.decoded y'.vault.ledger.log logs).mapM feeCredits = .ok credits ∧
      ∀ id asset,
        let account := y'.vault.ledger.account id asset
        let log := y'.vault.ledger.log
        ((creditedTo .creator id asset credits.flatten : ℤ) - overLog (Event.claimed id asset 0) log
            - overLog (Event.burned id asset 0) log = account.bucketLiabilities .creatorRevenue) ∧
        ((creditedTo .stakers id asset credits.flatten : ℤ) - overLog (Event.claimed id asset 1) log
            - overLog (Event.burned id asset 1) log - overLog (Event.reserved id asset) log
          = account.bucketLiabilities .stakerReward) ∧
        ((creditedTo .platform id asset credits.flatten : ℤ) + overLog (Event.converted id asset) log
            - overLog (Event.claimed id asset 2) log
          = account.bucketLiabilities .platformRevenue) ∧
        ((creditedTo .holders id asset credits.flatten : ℤ)
            - overAll (Movement.paid id asset) moves.flatten
            - overLog (Event.burned id asset 2) log = account.bucketLiabilities .holderReward) ∧
        creditedTo .creator id asset credits.flatten + creditedTo .stakers id asset credits.flatten
            + creditedTo .platform id asset credits.flatten
            + creditedTo .holders id asset credits.flatten
          = overAll (Movement.swept id asset) moves.flatten
            + overAll (Movement.nonLp id asset) moves.flatten := by
  obtain ⟨credits, hcredits, hsum⟩ := Backend.feeCredits_log y'.vault.ledger.log logs hlogs
  refine ⟨credits, hcredits, fun id asset => ?_⟩
  have hfollows : Follows id asset y.vault.ledger y'.vault.ledger moves.flatten :=
    follows_of_run hrun
  rw [hinit.1] at hfollows
  have hbucket : ∀ r, ((y'.vault.ledger.account id asset).bucketLiabilities (bucketOf r) : ℤ)
      = overLog (fun e => tells id asset e r) y'.vault.ledger.log
        + only .holderReward (-overAll (Movement.paid id asset) moves.flatten) r := by
    intro r
    have hposition := hfollows.position r
    rw [position_empty, position] at hposition
    omega
  obtain ⟨hcreator, hstakers, hplatform, hholders⟩ := over_tells id asset y'.vault.ledger.log
  simp only [hsum]
  refine ⟨?_, ?_, ?_, ?_, ?_⟩
  · have h := hbucket .creator
    rw [hcreator, only, if_neg (by decide), add_zero] at h
    exact h.symm
  · have h := hbucket .stakers
    rw [hstakers, only, if_neg (by decide), add_zero] at h
    exact h.symm
  · have h := hbucket .platform
    rw [hplatform, only, if_neg (by decide), add_zero] at h
    exact h.symm
  · have h := hbucket .holders
    rw [hholders, only, if_pos (by decide)] at h
    change ((overLog (Event.credit id asset .holders) y'.vault.ledger.log : ℕ) : ℤ) - _ - _ = _
    change ((y'.vault.ledger.account id asset).bucketLiabilities .holderReward : ℤ) = _ at h
    omega
  · have h := hfollows.credits
    rw [over_credits] at h
    exact h.trans (zero_add _)

end Runs

/-! ### The small vault, traced -/

namespace Sample

/-- The gauges of the small vault, which nobody calls. -/
def code : GaugeCode Unit :=
  ⟨fun _ _ => .ok 0, fun _ _ _ _ g => .ok g, fun _ _ g => .ok g, fun _ _ _ g => .ok (g, 0)⟩

/-- The sweep of the small vault, traced. -/
theorem traced_swept : Transition.Run
    (Traced DocumentedV4.platform UserStockVault.Sample.bindings vault code.calls) start
    [[], [], [.curveFee 1 0 100]] swept := by
  have hbegun : Transition.Run
      (Traced DocumentedV4.platform UserStockVault.Sample.bindings vault code.calls) start [[]]
      ⟨around 0, (), value begun begun_isOk⟩ :=
    .single (.beginCurveCredit 7 credit (eq_ok_value begun_isOk))
  have hpaid := hbegun.snoc (.environment (around 100) () evolves_around)
  exact hpaid.snoc (.finalizeCurveCredit 7 100 credit (eq_ok_value finalized_isOk))

/-- The places of the events of the sweep: of the holders' half, and of the sweep itself. -/
def logs : List Backend.RpcLog :=
  [⟨80, 9, 1, 2, 0, 0, Backend.zero_le_maxSafeInteger, Backend.zero_le_maxSafeInteger⟩,
    ⟨80, 9, 1, 2, 0, 1, Backend.zero_le_maxSafeInteger, Backend.one_le_maxSafeInteger⟩]

theorem length_logs : logs.length = swept.vault.ledger.log.length := by decide +kernel

end Sample

/-- The sweep of the small vault: its 100 are credited, and nothing else. -/
theorem fee_roles_sample : ∃ credits,
    (List.zipWith Event.decoded Sample.swept.vault.ledger.log Sample.logs).mapM feeCredits
      = .ok credits ∧
    creditedTo .creator 1 0 credits.flatten + creditedTo .stakers 1 0 credits.flatten
      + creditedTo .platform 1 0 credits.flatten + creditedTo .holders 1 0 credits.flatten
      = 100 := by
  have hinit : Init Sample.vault Sample.start :=
    ⟨rfl, by decide, fun _ => rfl, fun _ => rfl, fun _ => rfl, rfl⟩
  obtain ⟨credits, hcredits, hroles⟩ :=
    fee_roles hinit Sample.traced_swept Sample.logs Sample.length_logs
  exact ⟨credits, hcredits, (hroles 1 0).2.2.2.2⟩

end ProtocolFeeVault

end TickerGarden
