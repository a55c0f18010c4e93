import TickerGarden.Fees.Claims
import TickerGarden.Vault.Principal

/-!
# The liability identity

What the fee vault owes adds up, whatever has happened to it: the total of an asset is
the sum over the markets of their buckets and reserves, and the two divided buckets are
the sums of their parts. And no call of the vault makes an asset uncovered that was
covered.

Every call is a sequence of changes of single accounts, of payments and of checks;
`TickerGarden.ProtocolFeeVault.Conserves` is what each of them guarantees, and what a
sequence of them guarantees. The one call that is not such a sequence as it stands is
the claim of a creator, which deletes the parts in both assets before it debits the
buckets; since the two assets of a market are distinct, the two deletions and debits can
be taken asset by asset.
-/

namespace TickerGarden

open Checked

namespace ProtocolFeeVault

/-! ### Conserving -/

section Conserving

variable {owner beneficiary : Address} {l l' l'' : Ledger} {b b' b'' : Balances}
  {marketId : Bytes32} {asset : Address} {n m amount : ℕ} {event : Event}

/-- **A sequence of changes conserves**: the ledger stays sound, and what was covered
stays covered. -/
structure Conserves (owner : Address) (l : Ledger) (b : Balances) (l' : Ledger) (b' : Balances) :
    Prop where
  sound : LedgerSound l → LedgerSound l'
  covered : ∀ a, l.totalLiabilities a ≤ b a owner → l'.totalLiabilities a ≤ b' a owner

namespace Conserves

theorem refl : Conserves owner l b l b := ⟨id, fun _ => id⟩

theorem trans (h : Conserves owner l b l' b') (h' : Conserves owner l' b' l'' b'') :
    Conserves owner l b l'' b'' :=
  ⟨fun hl => h'.sound (h.sound hl), fun a ha => h'.covered a (h.covered a ha)⟩

/-- A change that does not grow the total. -/
theorem of_changes (h : Changes l l' marketId asset 0 m) : Conserves owner l b l' b where
  sound hl := hl.of_changes h
  covered a ha := by
    rcases eq_or_ne a asset with rfl | hne
    · have htotal := h.total
      omega
    · rwa [h.total_other a hne]

/-- A change after which the asset is covered. -/
theorem of_covered (h : Changes l l' marketId asset n m)
    (hcovered : l'.totalLiabilities asset ≤ b asset owner) : Conserves owner l b l' b where
  sound hl := hl.of_changes h
  covered a ha := by
    rcases eq_or_ne a asset with rfl | hne
    · exact hcovered
    · rwa [h.total_other a hne]

/-- Balances that change in one asset, which is covered afterwards. -/
theorem of_balances (hother : ∀ a, a ≠ asset → b' a owner = b a owner)
    (hcovered : l.totalLiabilities asset ≤ b asset owner → l.totalLiabilities asset ≤ b' asset owner) :
    Conserves owner l b l b' where
  sound := id
  covered a ha := by
    rcases eq_or_ne a asset with rfl | hne
    · exact hcovered ha
    · rwa [hother a hne]

theorem of_grows (h : ∀ a, b a owner ≤ b' a owner) : Conserves owner l b l b' where
  sound := id
  covered a ha := ha.trans (h a)

/-- The log does not count. -/
theorem emit (h : Conserves owner l b l' b') : Conserves owner l b (l'.emit event) b' :=
  ⟨fun hl => ⟨(h.sound hl).account, (h.sound hl).total⟩, h.covered⟩

/-! ### The pieces of the calls -/

theorem payFeeAsset (h : payFeeAsset owner b l asset beneficiary amount = .ok b') :
    Conserves owner l b l b' := by
  obtain ⟨hmove, hcovered⟩ := of_payFeeAsset h
  exact of_balances (fun a hne => Balances.move_other hmove hne _) fun _ => hcovered

theorem burnMemeFees {role : ℕ} {e : Epoch}
    (h : burnMemeFees owner b l marketId asset beneficiary role e amount = .ok (l', b')) :
    Conserves owner l b l' b' := by
  obtain ⟨hburn, hcovered, rfl⟩ := of_burnMemeFees h
  refine (of_balances (fun a hne => ?_) fun _ => hcovered).emit
  obtain ⟨-, rfl⟩ := Balances.burn_eq_some hburn
  simp [hne]

theorem debitSelected {bucket : Bucket} {selected : Bool} (hcreator : bucket ≠ .creatorRevenue)
    (hholder : bucket ≠ .holderReward)
    (h : debitSelected l marketId asset bucket selected amount = .ok l') :
    Conserves owner l b l' b := by
  unfold ProtocolFeeVault.debitSelected at h
  split at h
  · exact of_changes (of_debitLiability hcreator hholder h)
  · obtain rfl := Except.ok.inj h
    exact refl

/-- **The funding of the distributor**: a debit of the holders, and a payment as large. -/
theorem fund {e : Epoch} {distributor : Address}
    (hdebit : debitHolderFee l marketId asset e amount = .ok l')
    (hmove : b.move asset owner distributor amount = some b')
    (hpaid : b' asset owner + amount = b asset owner) : Conserves owner l b l' b' where
  sound hl := hl.of_changes (of_debitHolderFee hdebit)
  covered a ha := by
    have hchanges := of_debitHolderFee hdebit
    rcases eq_or_ne a asset with rfl | hne
    · have htotal := hchanges.total
      omega
    · rwa [hchanges.total_other a hne, Balances.move_other hmove hne]

end Conserves

end Conserving

/-! ### The claim of a creator -/

section Creator

variable {l l' : Ledger} {marketId : Bytes32} {asset other : Address} {amount : ℕ} {e : Epoch}
  {bucket : Bucket}

/-- A debit does not see a deletion in another asset. -/
theorem debitLiability_deleteCreatorLiability (hne : asset ≠ other)
    (h : debitLiability (deleteCreatorLiability l marketId other e) marketId asset bucket amount
      = .ok l') :
    ∃ l₁, debitLiability l marketId asset bucket amount = .ok l₁ ∧
      l' = deleteCreatorLiability l₁ marketId other e := by
  simp only [debitLiability, deleteCreatorLiability, Ledger.account_put_of_asset_ne hne,
    Ledger.totalLiabilities_put_of_ne hne, bind_eq_ok, usub_eq_ok, pure_eq_ok, Except.ok.injEq] at h
  obtain ⟨buckets, hdebit, _, ⟨hle, rfl⟩, rfl⟩ := h
  let a := { l.account marketId asset with bucketLiabilities := buckets }
  refine ⟨l.put marketId asset a (l.totalLiabilities asset - amount), ?_, ?_⟩
  · simp only [debitLiability, bind_eq_ok, usub_eq_ok, pure_eq_ok, Except.ok.injEq]
    exact ⟨buckets, hdebit, _, ⟨hle, rfl⟩, rfl⟩
  · rw [deleteCreatorLiability, Ledger.account_put_of_asset_ne hne.symm,
      Ledger.totalLiabilities_put_of_ne hne.symm, Ledger.put_comm hne]

/-- The claim of an epoch in one asset. -/
def claimCreator (l : Ledger) (marketId : Bytes32) (asset : Address) (epoch : Epoch)
    (selected : Bool) : Except Revert Ledger :=
  debitSelected (takeCreator l marketId asset epoch selected).1 marketId asset .creatorRevenue
    selected (takeCreator l marketId asset epoch selected).2

theorem Conserves.claimCreator {owner : Address} {b : Balances} {selected : Bool}
    (h : claimCreator l marketId asset e selected = .ok l') : Conserves owner l b l' b := by
  cases selected with
  | true => exact Conserves.of_changes (of_claimCreator h)
  | false =>
    obtain rfl := Except.ok.inj h
    exact Conserves.refl

/-- What an epoch is owed in one asset does not depend on a debit in another. -/
theorem account_debitLiability (hne : other ≠ asset)
    (h : debitLiability l marketId asset bucket amount = .ok l') :
    l'.account marketId other = l.account marketId other := by
  simp only [debitLiability, bind_eq_ok, pure_eq_ok, Except.ok.injEq] at h
  obtain ⟨_, -, _, -, rfl⟩ := h
  exact Ledger.account_put_of_asset_ne hne

/-- **The claim of a creator, asset by asset.** -/
theorem of_consumeCreatorRewards {c : Surroundings} {caller : Address} {config : MarketConfig}
    {assets : BitVec 8} {q m : ℕ} (hne : config.quoteAsset ≠ config.memeToken)
    (h : consumeCreatorRewards c caller l marketId config e assets = .ok (l', q, m)) :
    ∃ l₁, claimCreator l marketId config.quoteAsset e (hasQuote assets) = .ok l₁ ∧
      claimCreator l₁ marketId config.memeToken e (hasMeme assets) = .ok l' := by
  simp only [consumeCreatorRewards, bind_eq_ok, revertIf_eq_ok, pure_eq_ok, Except.ok.injEq,
    Prod.mk.injEq] at h
  obtain ⟨-, -, l₂, hquote, l₃, hmeme, rfl, -, -⟩ := h
  unfold claimCreator
  generalize hasQuote assets = withQuote at *
  generalize hasMeme assets = withMeme at *
  cases withMeme with
  | false =>
    obtain rfl := Except.ok.inj hmeme
    exact ⟨_, hquote, rfl⟩
  | true =>
    -- the deletion in the token is moved behind the debit in the quote
    cases withQuote with
    | false =>
      obtain rfl := Except.ok.inj hquote
      exact ⟨_, rfl, hmeme⟩
    | true =>
      obtain ⟨l₁, hdebit, rfl⟩ := debitLiability_deleteCreatorLiability hne hquote
      refine ⟨l₁, hdebit, ?_⟩
      have hsame : l₁.account marketId config.memeToken
          = (deleteCreatorLiability l marketId config.quoteAsset e).account marketId
            config.memeToken :=
        account_debitLiability hne.symm hdebit
      rw [takeCreator, if_pos rfl, hsame]
      exact hmeme

end Creator

/-! ### The calls -/

namespace Conserves

variable {platform : Platform} {v : Immutables} {c : Surroundings} {s s' : State}
  {caller asset user : Address} {marketId feeId : Bytes32} {l l' : Ledger} {b b' : Balances}
  {config : MarketConfig} {value : MarketView} {amount : ℕ} {e : Epoch}

theorem beginV4Credit {w : World} {sourceVersion : ℕ}
    (h : beginV4Credit v w caller s marketId asset amount sourceVersion feeId = .ok s') :
    Conserves v.self s.ledger b s'.ledger b := by
  simp only [ProtocolFeeVault.beginV4Credit, bind_eq_ok, pure_eq_ok, Except.ok.injEq] at h
  obtain ⟨-, -, -, -, -, -, -, -, rfl⟩ := h
  exact refl

theorem abandonStakerFee {record : V4CreditRecord} {attempt : StakerAttempt}
    (h : abandonStakerFee v l record attempt amount = .ok l') : Conserves v.self l b l' b := by
  unfold ProtocolFeeVault.abandonStakerFee at h
  split at h
  · simp only [bind_eq_ok, pure_eq_ok, Except.ok.injEq] at h
    obtain ⟨l₁, hreserve, rfl⟩ := h
    exact (of_changes (of_reserveForfeiture hreserve)).emit
  · obtain rfl := Except.ok.inj h
    exact refl

theorem creditTradingFeeLiabilities {creator staker platformAmount tax holder : ℕ}
    (h : creditTradingFeeLiabilities v.self b l marketId asset e amount creator staker
      platformAmount tax config = .ok (l', holder)) : Conserves v.self l b l' b := by
  obtain ⟨hchanges, hcovered⟩ := of_creditTradingFeeLiabilities h
  exact of_covered hchanges hcovered

variable {G : Type} {calls : GaugeCalls G} {g g' : G} {gas : StakerGas}

theorem settleV4Attribution {record : V4CreditRecord} {tax : ℕ}
    (h : settleV4Attribution calls v c gas s g record value tax = .ok (l, g')) :
    Conserves v.self s.ledger c.balances l c.balances := by
  simp only [ProtocolFeeVault.settleV4Attribution, bind_eq_ok, pure_eq_ok, Except.ok.injEq,
    Prod.mk.injEq] at h
  obtain ⟨_, -, _, -, _, -, _, -, _, -, -, -, ⟨l₁, _⟩, hcredit, l₂, habandon, _, -, rfl, -⟩ := h
  exact ((creditTradingFeeLiabilities hcredit).trans (abandonStakerFee habandon)).emit

theorem finalizeV4Credit {base totalFee lpAmount nonLpAmount feeNonce : ℕ}
    (h : finalizeV4Credit calls platform v c gas caller s g marketId asset base totalFee lpAmount
      nonLpAmount feeNonce feeId = .ok (s', g')) :
    Conserves v.self s.ledger c.balances s'.ledger c.balances := by
  simp only [ProtocolFeeVault.finalizeV4Credit, bind_eq_ok, pure_eq_ok, Except.ok.injEq,
    Prod.mk.injEq] at h
  obtain ⟨-, -, -, -, _, -, -, -, _, -, ⟨l, _⟩, hsettle, rfl, -⟩ := h
  have hsettled := settleV4Attribution hsettle
  exact hsettled

theorem beginCurveCredit {credit : Curve.CurveCredit}
    (h : beginCurveCredit platform v c caller s credit = .ok s') :
    Conserves v.self s.ledger b s'.ledger b := by
  simp only [ProtocolFeeVault.beginCurveCredit, bind_eq_ok, pure_eq_ok, Except.ok.injEq] at h
  obtain ⟨-, -, -, -, -, -, -, -, rfl⟩ := h
  exact refl

theorem finalizeCurveCredit {credit : Curve.CurveCredit}
    (h : finalizeCurveCredit platform v c caller s amount credit = .ok s') :
    Conserves v.self s.ledger c.balances s'.ledger c.balances := by
  simp only [ProtocolFeeVault.finalizeCurveCredit, recordExactCurveCredit, bind_eq_ok, pure_eq_ok,
    Except.ok.injEq] at h
  obtain ⟨-, -, _, -, -, -, -, -, -, -, _, -, _, -, _, -, l, ⟨⟨l₁, _⟩, hcredit, _, -, rfl⟩, rfl⟩ := h
  exact (creditTradingFeeLiabilities hcredit).emit

theorem coverAssetDeficit {sent : ℕ} (hcaller : caller ≠ v.self)
    (h : coverAssetDeficit v c s caller sent asset amount = .ok (s', b')) :
    Conserves v.self s.ledger c.balances s'.ledger b' := by
  simp only [ProtocolFeeVault.coverAssetDeficit, bind_eq_ok, orRevert_eq_ok, pure_eq_ok,
    Except.ok.injEq, Prod.mk.injEq] at h
  obtain ⟨b₁, hvalue, -, -, -, -, _, -, -, -, b₂, hpull, rfl, rfl⟩ := h
  have hreceived : Conserves v.self s.ledger c.balances s.ledger b₁ :=
    of_grows (Balances.le_of_move hvalue hcaller.symm)
  refine (hreceived.trans ?_).emit
  unfold pullContribution at hpull
  split at hpull
  · obtain rfl := Except.ok.inj hpull
    exact refl
  · simp only [bind_eq_ok, orRevert_eq_ok, pure_eq_ok, Except.ok.injEq] at hpull
    obtain ⟨_, hmove, -, -, rfl⟩ := hpull
    exact of_grows (Balances.le_of_move hmove hcaller.symm)

theorem claimPlatform (h : claimPlatform v c s marketId asset = .ok (s', b')) :
    Conserves v.self s.ledger c.balances s'.ledger b' := by
  simp only [ProtocolFeeVault.claimPlatform, bind_eq_ok, pure_eq_ok, Except.ok.injEq,
    Prod.mk.injEq] at h
  obtain ⟨-, -, _, -, l₁, hconvert, -, -, ⟨l₂, _⟩, hpay, rfl, rfl⟩ := h
  have hconverted : Conserves v.self s.ledger c.balances l₁ c.balances :=
    of_changes (of_convertForfeitureReserve hconvert)
  refine hconverted.trans ?_
  unfold payPlatform at hpay
  dsimp only at hpay
  split at hpay
  · simp only [bind_eq_ok, pure_eq_ok, Except.ok.injEq, Prod.mk.injEq] at hpay
    obtain ⟨l₃, hdebit, b₁, hpaid, rfl, rfl⟩ := hpay
    have hdebited : Conserves v.self l₁ c.balances l₃ c.balances :=
      of_changes (of_debitLiability (by decide) (by decide) hdebit)
    exact (hdebited.trans (payFeeAsset hpaid)).emit
  · obtain ⟨rfl, rfl⟩ := Prod.mk.inj (Except.ok.inj hpay)
    exact refl

theorem recordForfeiture {quoteAmount memeAmount : ℕ}
    (h : recordForfeiture v c s caller marketId user quoteAmount memeAmount = .ok s') :
    Conserves v.self s.ledger b s'.ledger b := by
  simp only [ProtocolFeeVault.recordForfeiture, bind_eq_ok, pure_eq_ok, Except.ok.injEq] at h
  obtain ⟨-, -, _, -, -, -, -, -, -, -, l₁, hquote, l₂, hmeme, -, -, -, -, rfl⟩ := h
  exact (of_changes (of_reserveForfeiture hquote)).trans (of_changes (of_reserveForfeiture hmeme))

/-! #### Claims of users -/

theorem consumeUserRewards {role q m : ℕ} {assets : BitVec 8}
    (hne : config.quoteAsset ≠ config.memeToken)
    (h : consumeUserRewards c calls caller l g marketId config role e assets = .ok (l', g', q, m)) :
    Conserves v.self l b l' b := by
  unfold ProtocolFeeVault.consumeUserRewards at h
  split at h
  · simp only [bind_eq_ok, pure_eq_ok, Except.ok.injEq, Prod.mk.injEq] at h
    obtain ⟨⟨l₁, _, _⟩, hconsume, rfl, -⟩ := h
    obtain ⟨l₂, hquote, hmeme⟩ := of_consumeCreatorRewards hne hconsume
    exact (claimCreator hquote).trans (claimCreator hmeme)
  · simp only [consumeStakerRewards, bind_eq_ok, pure_eq_ok, Except.ok.injEq, Prod.mk.injEq] at h
    obtain ⟨-, -, _, -, l₁, hquote, l₂, hmeme, rfl, -⟩ := h
    have hquote' : Conserves v.self l b l₁ b := debitSelected (by decide) (by decide) hquote
    exact hquote'.trans (debitSelected (by decide) (by decide) hmeme)

theorem payQuote (h : payQuote v caller l b asset amount = .ok b') : Conserves v.self l b l b' := by
  unfold ProtocolFeeVault.payQuote at h
  split at h
  · exact payFeeAsset h
  · obtain rfl := Except.ok.inj h
    exact refl

theorem payMeme {role paid : ℕ}
    (h : payMeme v caller l b marketId config role e amount = .ok (l', b', paid)) :
    Conserves v.self l b l' b' := by
  unfold ProtocolFeeVault.payMeme at h
  split at h
  · obtain ⟨rfl, rfl, -⟩ := Prod.mk.inj (Except.ok.inj h)
    exact refl
  · split at h
    · simp only [bind_eq_ok, pure_eq_ok, Except.ok.injEq, Prod.mk.injEq] at h
      obtain ⟨⟨l₁, b₁⟩, hburn, rfl, rfl, -⟩ := h
      exact burnMemeFees hburn
    · simp only [bind_eq_ok, pure_eq_ok, Except.ok.injEq, Prod.mk.injEq] at h
      obtain ⟨b₁, hpay, rfl, rfl, -⟩ := h
      exact payFeeAsset hpay

theorem emitClaims {role q m : ℕ} (h : Conserves v.self l b l' b') :
    Conserves v.self l b (emitClaims l' caller marketId config role e q m) b' := by
  unfold ProtocolFeeVault.emitClaims
  refine emit ?_
  split <;> split <;> first | exact h.emit.emit | exact h.emit | exact h

theorem claimUserRewards {role q m : ℕ} {assets : BitVec 8}
    (h : claimUserRewards v c s calls caller g marketId role e assets = .ok (s', b', g', q, m)) :
    Conserves v.self s.ledger c.balances s'.ledger b' := by
  simp only [ProtocolFeeVault.claimUserRewards, bind_eq_ok, pure_eq_ok, Except.ok.injEq,
    Prod.mk.injEq] at h
  obtain ⟨-, -, -, -, -, -, value, -, -, -, -, -, ⟨l₁, _, _, _⟩, hconsume, b₁, hquote, ⟨l₂, _, _⟩,
    hmeme, -, -, rfl, rfl, -⟩ := h
  have hconsumed : Conserves v.self s.ledger c.balances l₁ c.balances :=
    consumeUserRewards value.config.quoteAsset_ne_memeToken hconsume
  exact emitClaims ((hconsumed.trans (payQuote hquote)).trans (payMeme hmeme))

/-! #### The holders -/

theorem settleHolderMemeBurn
    (h : settleHolderMemeBurn v l b marketId config = .ok (l', b', amount)) :
    Conserves v.self l b l' b' := by
  unfold ProtocolFeeVault.settleHolderMemeBurn at h
  dsimp only at h
  split at h
  · obtain ⟨rfl, rfl, -⟩ := Prod.mk.inj (Except.ok.inj h)
    exact refl
  · simp only [bind_eq_ok, pure_eq_ok, Except.ok.injEq, Prod.mk.injEq] at h
    obtain ⟨-, -, l₁, hdebit, ⟨l₂, b₂⟩, hburn, rfl, rfl, -⟩ := h
    exact (of_changes (of_debitHolderFee hdebit)).trans (burnMemeFees hburn)

theorem fundHolderQuote {quote distributor : Address}
    (h : fundHolderQuote v l b marketId e quote distributor amount = .ok (l', b')) :
    Conserves v.self l b l' b' := by
  unfold ProtocolFeeVault.fundHolderQuote at h
  split at h
  · obtain ⟨rfl, rfl⟩ := Prod.mk.inj (Except.ok.inj h)
    exact refl
  · simp only [bind_eq_ok, orRevert_eq_ok, revertIf_eq_ok, pure_eq_ok, Except.ok.injEq,
      Prod.mk.injEq, not_not] at h
    obtain ⟨-, -, l₁, hdebit, _, hmove, -, hpaid, -, -, rfl, rfl⟩ := h
    exact fund hdebit hmove hpaid

theorem fundHolderMeme {token distributor : Address}
    (h : fundHolderMeme v l b marketId token distributor amount = .ok (l', b')) :
    Conserves v.self l b l' b' := by
  unfold ProtocolFeeVault.fundHolderMeme at h
  split at h
  · obtain ⟨rfl, rfl⟩ := Prod.mk.inj (Except.ok.inj h)
    exact refl
  · simp only [bind_eq_ok, orRevert_eq_ok, revertIf_eq_ok, pure_eq_ok, Except.ok.injEq,
      Prod.mk.injEq, not_not] at h
    obtain ⟨-, -, l₁, hdebit, _, hmove, -, hpaid, rfl, rfl⟩ := h
    exact fund hdebit hmove hpaid

theorem fundHolderRewards (h : fundHolderRewards v c s marketId e = .ok (s', b', amount)) :
    Conserves v.self s.ledger c.balances s'.ledger b' := by
  simp only [ProtocolFeeVault.fundHolderRewards, bind_eq_ok] at h
  obtain ⟨-, -, _, -, _, -, ⟨l₁, b₁, _⟩, hburn, ⟨l₂, b₂⟩, hfund, h⟩ := h
  have hfunded := (settleHolderMemeBurn hburn).trans (fundHolderQuote hfund)
  split at h <;> simp only [bind_eq_ok, pure_eq_ok, Except.ok.injEq, Prod.mk.injEq] at h
  · obtain ⟨-, -, rfl, rfl, -⟩ := h
    exact hfunded
  · obtain ⟨rfl, rfl, -⟩ := h
    exact hfunded

theorem fundHolderMemeRewards (h : fundHolderMemeRewards v c s marketId = .ok (s', b', amount)) :
    Conserves v.self s.ledger c.balances s'.ledger b' := by
  simp only [ProtocolFeeVault.fundHolderMemeRewards, bind_eq_ok] at h
  obtain ⟨-, -, _, -, _, -, h⟩ := h
  split at h <;> simp only [bind_eq_ok, pure_eq_ok, Except.ok.injEq, Prod.mk.injEq] at h
  · obtain ⟨⟨l₁, b₁, _⟩, hburn, rfl, rfl, -⟩ := h
    exact settleHolderMemeBurn hburn
  · obtain ⟨⟨l₁, b₁⟩, hfund, rfl, rfl, -⟩ := h
    exact fundHolderMeme hfund

theorem attemptHolderFunding {enough : Bool} {n : ℕ} :
    Conserves v.self s.ledger b (attemptHolderFunding v c s enough b marketId n).1.ledger
      (attemptHolderFunding v c s enough b marketId n).2 := by
  unfold ProtocolFeeVault.attemptHolderFunding
  dsimp only
  split
  · rename_i s₁ b₁ amount hfund
    refine emit ?_
    obtain ⟨-, hfund⟩ := ifGas_eq_ok.mp hfund
    split at hfund
    · exact fundHolderRewards hfund
    · exact fundHolderMemeRewards hfund
  · exact refl.emit

/-- **A batch conserves**, by induction on its items. -/
theorem fundItems {gas : ℕ → ℕ → FundingGas} {length : ℕ} (items : List (ℕ × Bytes32 × ℕ)) :
    Conserves v.self s.ledger b (fundItems v c gas length items s b).1.1.ledger
      (fundItems v c gas length items s b).1.2 := by
  induction items generalizing s b with
  | nil => exact refl
  | cons item items ih =>
    obtain ⟨i, id, n⟩ := item
    unfold ProtocolFeeVault.fundItems
    split
    · exact attemptHolderFunding.trans ih
    · exact refl.emit

end Conserves

/-! ### Every step, and every run -/

section Runs

variable {G : Type} {platform : Platform} {bindings : MarketRegistry.Bindings} {v : Immutables}
  {calls : GaugeCalls G} {y y' : System G}

/-- **One step conserves.** -/
theorem conserves_of_step {u : Unit} (hstep : Step platform bindings v calls y u y') :
    Conserves v.self y.vault.ledger y.around.balances y'.vault.ledger y'.around.balances := by
  cases hstep with
  | beginV4Credit caller marketId feeAsset amount sourceVersion feeId h =>
    exact Conserves.beginV4Credit h
  | finalizeV4Credit gas caller marketId feeAsset base totalFee lp nonLp feeNonce feeId h =>
    exact Conserves.finalizeV4Credit h
  | beginCurveCredit caller credit h => exact Conserves.beginCurveCredit h
  | finalizeCurveCredit caller value credit h => exact Conserves.finalizeCurveCredit h
  | coverAssetDeficit caller value asset amount hcaller h =>
    exact Conserves.coverAssetDeficit hcaller h
  | claimPlatform marketId feeAsset h => exact Conserves.claimPlatform h
  | recordForfeiture caller marketId user quoteAmount memeAmount h =>
    exact Conserves.recordForfeiture h
  | claimUserRewards caller marketId role epoch assets hcaller h =>
    exact Conserves.claimUserRewards h
  | fundHolderRewards marketId epochId h => exact Conserves.fundHolderRewards h
  | fundHolderMemeRewards marketId h => exact Conserves.fundHolderMemeRewards h
  | fundHolderRewardsBatch gas marketIds assets gasPerAsset h =>
    simp only [fundHolderRewardsBatch, bind_eq_ok, pure_eq_ok, Except.ok.injEq] at h
    obtain ⟨-, -, -, -, h⟩ := h
    have hitems : Conserves v.self y.vault.ledger y.around.balances
        (fundItems v y.around gas marketIds.length (fundingItems marketIds assets) y.vault
          y.around.balances).1.1.ledger
        (fundItems v y.around gas marketIds.length (fundingItems marketIds assets) y.vault
          y.around.balances).1.2 := Conserves.fundItems _
    rw [h] at hitems
    exact hitems
  | treasury treasury h => exact Conserves.refl
  | endTransaction => exact Conserves.refl
  | environment c g h => exact Conserves.of_grows (h.balances_le v.self rfl)

/-- **The ledger of every reachable state is sound.** -/
theorem ledgerSound_of_reachable (h : Reachable platform bindings v calls y) :
    LedgerSound y.vault.ledger := by
  refine h.invariant (I := fun y => LedgerSound y.vault.ledger) (fun y hy => ?_)
    fun _ _ _ hy hstep => (conserves_of_step hstep).sound hy
  obtain ⟨hempty, -⟩ := hy
  rw [hempty]
  exact ledgerSound_empty

/-- **The liability identity.** In every reachable state the total of an asset is the sum
over the markets of the four buckets and the reserve, the creators' bucket is the sum over
the epochs, and the holders' bucket the sum over theirs; and every step leaves an asset
covered that was covered. -/
theorem liability_identity (h : Reachable platform bindings v calls y) :
    (∀ asset, y.vault.ledger.totalLiabilities asset = ∑ id,
      ((y.vault.ledger.account id asset).bucketLiabilities .creatorRevenue
        + (y.vault.ledger.account id asset).bucketLiabilities .stakerReward
        + (y.vault.ledger.account id asset).bucketLiabilities .platformRevenue
        + (y.vault.ledger.account id asset).bucketLiabilities .holderReward
        + (y.vault.ledger.account id asset).forfeitureReserve)) ∧
    (∀ id asset, (y.vault.ledger.account id asset).bucketLiabilities .creatorRevenue
      = ∑ e, (y.vault.ledger.account id asset).creatorLiabilities e) ∧
    (∀ id asset, (y.vault.ledger.account id asset).bucketLiabilities .holderReward
      = ∑ e, (y.vault.ledger.account id asset).holderLiability e) ∧
    ∀ u y' asset, Step platform bindings v calls y u y' →
      y.vault.ledger.totalLiabilities asset ≤ y.around.balances asset v.self →
      y'.vault.ledger.totalLiabilities asset ≤ y'.around.balances asset v.self := by
  have hsound := ledgerSound_of_reachable h
  refine ⟨fun asset => ?_, fun id asset => (hsound.account id asset).creator,
    fun id asset => (hsound.account id asset).holder,
    fun u y' asset hstep => (conserves_of_step hstep).covered asset⟩
  rw [hsound.total asset]
  exact Finset.sum_congr rfl fun id _ => Account.liability_eq _

end Runs

/-! ### A small vault

A curve sweeps 100 of the native currency into the vault. -/

namespace Sample

/-- The vault is account 80. -/
def vault : Immutables := ⟨80, 81, 5⟩

/-- The market of the stock vault's example, still on its curve, account 7. -/
def registries : Registries :=
  { UserStockVault.Sample.registries with
    markets := fun id => if id = 1
      then some ⟨UserStockVault.Sample.config, ⟨0, 1, launchPhaseNotGraduated⟩⟩ else none }

/-- The surroundings of the vault, which holds an amount of the native currency. -/
def around (held : ℕ) : Surroundings where
  registries := registries
  hasCode _ := true
  now := 1000
  balances token holder := if token = 0 ∧ holder = 80 then held else 0
  currentCreatorEpoch _ := 1
  creatorBeneficiaryAt _ _ := 12
  holderRewardsDistributor _ := 90

/-- There are no gauges to call. -/
def calls : GaugeCalls Unit := ⟨fun _ _ => .ok 0, fun _ _ _ _ g => .ok g, fun _ _ _ g => .ok (g, 0, 0)⟩

/-- The ledger of a vault that has not been used. -/
def fresh : State := ⟨Ledger.empty, fun _ => false, fun _ => 0, fun _ => 0, 82, Session.start⟩

/-- The vault at its beginning. -/
def start : System Unit := ⟨around 0, (), fresh⟩

/-- A curve of the market has swept a hundred, ten of them as the tax of its creator. -/
def credit : Curve.CurveCredit where
  marketId := 1
  quoteAsset := 0
  amount := 100
  creatorTaxAmount := 10
  sourceVersion := 1
  sweepNonce := 1
  feeId := DocumentedV4.platform.keccak256 (.curveSweep "TICKERGARDEN_V1_CURVE_SWEEP" 1
    DocumentedV4.platform.chainId 80 7 1 1 1 0 100 10)

/-- The credit is announced, before anything is paid. -/
def begun : Except Revert State :=
  beginCurveCredit DocumentedV4.platform vault (around 0) 7 fresh credit

theorem begun_isOk : begun.isOk = true := by decide +kernel

/-- The hundred have come in, and the credit is taken. -/
def finalized : Except Revert State :=
  finalizeCurveCredit DocumentedV4.platform vault (around 100) 7 (value begun begun_isOk) 100 credit

theorem finalized_isOk : finalized.isOk = true := by decide +kernel

/-- The vault after the sweep. -/
def swept : System Unit := ⟨around 100, (), value finalized finalized_isOk⟩

/-- The payment of the curve arrives. -/
theorem evolves_around : World.Evolves DocumentedV4.platform UserStockVault.Sample.bindings
    (· = vault.self) (around 0).toWorld (around 100).toWorld where
  registries := ⟨[], Transition.Run.refl _⟩
  now_le := le_rfl
  hasCode _ := id
  balances_le a ha token := by
    obtain rfl : a = 80 := ha
    simp only [around]
    split <;> omega

theorem reachable_swept : Reachable DocumentedV4.platform UserStockVault.Sample.bindings vault calls
    swept := by
  have hinit : Init vault start := ⟨rfl, by decide, fun _ => rfl, fun _ => rfl, fun _ => rfl, rfl⟩
  have hbegun : Reachable DocumentedV4.platform UserStockVault.Sample.bindings vault calls
      ⟨around 0, (), value begun begun_isOk⟩ :=
    (Transition.Reachable.of_init hinit).next (Step.beginCurveCredit 7 credit (eq_ok_value begun_isOk))
  have hpaid := hbegun.next (Step.environment (around 100) () evolves_around)
  exact hpaid.next (Step.finalizeCurveCredit 7 100 credit (eq_ok_value finalized_isOk))

end Sample

/-- The identity of the small vault: its quote, and its one funding bucket. -/
theorem liability_identity_sample :
    (Sample.swept.vault.ledger.totalLiabilities 0 = ∑ id,
      ((Sample.swept.vault.ledger.account id 0).bucketLiabilities .creatorRevenue
        + (Sample.swept.vault.ledger.account id 0).bucketLiabilities .stakerReward
        + (Sample.swept.vault.ledger.account id 0).bucketLiabilities .platformRevenue
        + (Sample.swept.vault.ledger.account id 0).bucketLiabilities .holderReward
        + (Sample.swept.vault.ledger.account id 0).forfeitureReserve)) ∧
    (Sample.swept.vault.ledger.account 1 0).bucketLiabilities .holderReward
      = ∑ e, (Sample.swept.vault.ledger.account 1 0).holderLiability e :=
  have h := liability_identity Sample.reachable_swept
  ⟨h.1 0, h.2.2.1 1 0⟩

end ProtocolFeeVault

end TickerGarden
