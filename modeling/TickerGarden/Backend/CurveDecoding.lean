import TickerGarden.Backend.Analytics
import TickerGarden.Curve.Solvency
import TickerGarden.Graduation.PoolMath

/-!
# The reserves of a curve, read off its events

The analytics service knows a curve by its events only. This file compares what
`TickerGarden.Backend.Analytics.normalizeCurve` makes of them with what the trades do to the
reserves.

* `TickerGarden.Backend.CurveDecoding.Trade` says what a trade event tells about a change of
  the reserves; every buy and every sell emits exactly one event that does (`trade_of_buy`,
  `trade_of_sell`).
* `TickerGarden.Backend.CurveDecoding.normalizeCurve_of_trade`: such an event is normalised,
  with the amounts of that change, exactly when its price is a fraction of words.
* `TickerGarden.Backend.CurveDecoding.curve_decoding` sums this up over a run.

The sum follows the reserves up to the buy that completes the curve. That buy hands them
over, so that afterwards the curve tracks nothing, while the sum stays at what it was when
the last token was sold.
-/

namespace TickerGarden

open Checked

namespace CurveMath

/-- The output of a swap is a word. -/
theorem amountOut_le {n x y f out : ℕ} (h : amountOut n x y f = .ok out) : out ≤ maxUint256 := by
  simp only [amountOut, bind_eq_ok, mulDiv_eq_ok, pure_eq_ok, Except.ok.injEq] at h
  obtain ⟨-, -, -, -, -, -, _, -, _, -, _, -, _, ⟨-, hle, rfl⟩, -, -, rfl⟩ := h
  exact hle

/-- So are the tokens of a buy, clipped or not. -/
theorem tokensOut_le {received x y r f g t minOut : ℕ} {q : BuyQuote}
    (h : quoteBuyWithCreatorTax received x y r f g t minOut = .ok q) : q.tokensOut ≤ maxUint256 := by
  simp only [quoteBuyWithCreatorTax, bind_eq_ok, usub_eq_ok] at h
  obtain ⟨_, -, total, -, -, -, full, -, out, hout, sellable, ⟨-, rfl⟩, h⟩ := h
  have hle := amountOut_le hout
  split at h
  · rename_i hclip
    simp only [bind_eq_ok, pure_eq_ok, Except.ok.injEq] at h
    obtain ⟨_, -, _, -, _, -, _, -, rfl⟩ := h
    exact hclip.le.trans hle
  · simp only [pure_eq_ok, Except.ok.injEq] at h
    obtain rfl := h
    exact hle

/-- **A sell pays something**: the two fees together are less than the gross quote. -/
theorem quoteOut_pos {tokensIn x y f g minOut : ℕ} {q : SellQuote}
    (h : quoteSell tokensIn y x f g minOut = .ok q) : 0 < q.quoteOut := by
  simp only [quoteSell, bind_eq_ok, pure_eq_ok, Except.ok.injEq, Prod.exists] at h
  obtain ⟨total, htotal, gross, hgross, fee, additional, out, hnet, rfl⟩ := h
  obtain ⟨-, -, -, hpos, -⟩ := amountOut_eq_ok hgross
  obtain ⟨-, hlt⟩ := validatedTotalFee_eq_ok htotal
  obtain ⟨hfee, hadditional, hsum⟩ := netAfterFees_eq_ok hnet
  have hf : fee * bpsDenominator ≤ gross * f := by rw [hfee]; exact div_mul_le _ _
  have hg : additional * bpsDenominator ≤ gross * g := by rw [hadditional]; exact div_mul_le _ _
  have hrate : gross * (f + g) < gross * bpsDenominator := Nat.mul_lt_mul_of_pos_left hlt hpos
  have hexpand : gross * bpsDenominator
      = fee * bpsDenominator + additional * bpsDenominator + out * bpsDenominator := by
    rw [← hsum]
    ring
  rw [Nat.mul_add] at hrate
  refine Nat.pos_of_ne_zero fun hzero => ?_
  dsimp only at hzero
  rw [hzero] at hexpand
  omega

end CurveMath

namespace Backend

open Analytics Curve

namespace CurveDecoding

/-! ### What an event tells -/

/-- The trades of a curve by the names of the interface file; other events are none. -/
def decodeCurveEvent (log : RpcLog) : Curve.Event → Option DecodedProtocolEvent
  | .curveBuy sender recipient quoteSpent tokensOut fee surcharge => some {
      module := .tickerGardenCurve
      eventName := .curveBuy
      args := args [(.buyer, .address sender), (.recipient, .address recipient),
        (.quoteIn, .bigint quoteSpent), (.tokensOut, .bigint tokensOut), (.fee, .bigint fee),
        (.tax, .bigint surcharge)]
      log }
  | .curveSell sender recipient tokensIn quoteOut fee surcharge => some {
      module := .tickerGardenCurve
      eventName := .curveSell
      args := args [(.seller, .address sender), (.recipient, .address recipient),
        (.tokensIn, .bigint tokensIn), (.quoteOut, .bigint quoteOut), (.fee, .bigint fee),
        (.tax, .bigint surcharge)]
      log }
  | _ => none

/-- The direction of a trade: a buy adds to the net quote, a sell takes off it. -/
def sign : TradeSide → ℤ
  | .buy => 1
  | .sell => -1

/-- The change of the net quote an event reports. -/
def quoteChange : Curve.Event → ℤ
  | .curveBuy _ _ quoteSpent _ fee surcharge => quoteSpent - fee - surcharge
  | .curveSell _ _ _ quoteOut fee surcharge => -(quoteOut + fee + surcharge)
  | _ => 0

/-- The tokens an event reports as sold. -/
def tokensSold : Curve.Event → ℤ
  | .curveBuy _ _ _ tokensOut _ _ => tokensOut
  | .curveSell _ _ tokensIn _ _ _ => -tokensIn
  | _ => 0

/-- **What a trade event tells about a change of the reserves**: its direction and its
amounts, which are words and not zero. -/
structure Trade (e : Curve.Event) (side : TradeSide) (st st' : Curve.State) : Prop where
  event : (side = .buy ∧ ∃ sender recipient quoteSpent tokensOut fee surcharge,
      e = .curveBuy sender recipient quoteSpent tokensOut fee surcharge ∧ 0 < tokensOut ∧
      fee + surcharge < quoteSpent ∧ tokensOut ≤ maxUint256 ∧ quoteSpent ≤ maxUint256) ∨
    (side = .sell ∧ ∃ sender recipient tokensIn quoteOut fee surcharge,
      e = .curveSell sender recipient tokensIn quoteOut fee surcharge ∧ 0 < tokensIn ∧
      0 < quoteOut ∧ tokensIn ≤ maxUint256 ∧ quoteOut + fee + surcharge ≤ maxUint256)
  quote : (st'.netQuote : ℤ) = st.netQuote + quoteChange e
  tokens : (st'.reserves.trackedTokens : ℤ) + tokensSold e = st.reserves.trackedTokens

section Curve

variable {W : Type} {platform : Platform} {calls : Externals W} {imm : Immutables}
  {s s' : System W} {events : List Curve.Event}

/-- The trade events among the events of a call. -/
def isTrade : Curve.Event → Bool
  | .curveBuy .. => true
  | .curveSell .. => true
  | _ => false

/-- **A buy emits one trade event**, which tells how it changed the reserves. -/
theorem trade_of_buyTrade {call : Call} {quoteIn minOut : ℕ} {recipient : Address}
    (hs : Collateralised imm s.curve)
    (h : buyTrade calls imm call s quoteIn minOut recipient = .ok (s', events)) :
    ∃ e, events.filter isTrade = [e] ∧ Trade e .buy s.curve s'.curve := by
  obtain ⟨-, q, hq, hcurve⟩ := buyTrade_curve h
  have hsound := buyQuote_sound hq
  obtain ⟨-, hnet, htokens, -⟩ := applyBuy_spec hs.toAccounted hsound hcurve
  have hspent := hsound.spent_eq
  -- The quote that stays pays for the tokens at a positive price.
  obtain ⟨sellable, hpart⟩ := hs.partition_eq
  have hphantom := (SupplyMath.partition_of_supplyPartition hpart).phantomQuote_pos
  have hpos : 0 < q.curveQuote.netQuote := by
    refine Nat.pos_of_ne_zero fun hzero => ?_
    have hcovers := hsound.covers
    rw [hzero, Nat.zero_mul, Nat.le_zero, Nat.mul_eq_zero] at hcovers
    have hout := hsound.tokensOut_pos
    omega
  have htokensOut : q.curveQuote.tokensOut ≤ maxUint256 := by
    simp only [buyQuote, bind_eq_ok, pure_eq_ok, Except.ok.injEq, Prod.exists] at hq
    obtain ⟨_, _, -, -, -, -, -, -, -, -, _, -, quote, hquote, rfl⟩ := hq
    exact CurveMath.tokensOut_le hquote
  have hquoteSpent : q.curveQuote.quoteSpent ≤ maxUint256 := by
    simp only [applyBuy, bind_eq_ok, uadd_eq_ok] at hcurve
    obtain ⟨_, ⟨hmax, -⟩, -⟩ := hcurve
    omega
  have htrade : ∀ sender, Trade (.curveBuy sender recipient q.curveQuote.quoteSpent
      q.curveQuote.tokensOut q.curveQuote.fee
      (q.curveQuote.additionalQuoteFee + q.curveQuote.creatorTaxFee)) .buy s.curve s'.curve := by
    intro sender
    refine ⟨.inl ⟨rfl, _, _, _, _, _, _, rfl, hsound.tokensOut_pos, by omega, htokensOut,
      hquoteSpent⟩, ?_, ?_⟩
    · simp only [quoteChange]
      omega
    · simp only [tokensSold]
      omega
  obtain ⟨refunds, hrefunds, rfl⟩ := events_of_buyTrade hq h
  rcases hrefunds with rfl | rfl
  · exact ⟨_, rfl, htrade _⟩
  · exact ⟨_, rfl, htrade _⟩

/-- **A sell emits one trade event**, which tells how it changed the reserves. -/
theorem trade_of_sell {call : Call} {tokensIn minOut : ℕ} {recipient : Address}
    (hs : Collateralised imm s.curve)
    (h : sell calls imm call s tokensIn minOut recipient = .ok (s', events)) :
    ∃ e, events = [e] ∧ Trade e .sell s.curve s'.curve := by
  obtain ⟨-, q, hq, hreal, hcurve⟩ := sell_curve h
  have hsound := sellQuote_sound hq
  obtain ⟨-, hnet, htokens, -, hquote, -⟩ := applySell_spec hs.toAccounted hsound hreal hcurve
  have hgross := hsound.gross_eq
  have hquoteOut : 0 < q.quoteOut := by
    simp only [sellQuote, bind_eq_ok, Prod.exists] at hq
    obtain ⟨_, _, -, hquote⟩ := hq
    exact CurveMath.quoteOut_pos hquote
  have htokensIn : tokensIn ≤ maxUint256 := by
    simp only [applySell, bind_eq_ok, uadd_eq_ok] at hcurve
    obtain ⟨_, ⟨hmax, -⟩, -⟩ := hcurve
    rw [← hsound.tokensIn_eq]
    omega
  have hmax := hs.quote_le
  have hfees : s.curve.netQuote ≤ s.curve.reserves.trackedQuote := Nat.sub_le _ _
  simp only [sell, bind_eq_ok, pure_eq_ok, Except.ok.injEq, Prod.mk.injEq] at h
  obtain ⟨-, -, _, -, -, -, q', hq', -, -, _, -, -, -, _, -, _, -, _, -, -, rfl⟩ := h
  obtain rfl : q = q' := Except.ok.inj (hq.symm.trans hq')
  refine ⟨_, rfl, .inr ⟨rfl, _, _, _, _, _, _, rfl, hsound.tokensIn_pos, hquoteOut, htokensIn,
    by omega⟩, ?_, ?_⟩
  · simp only [quoteChange]
    omega
  · simp only [tokensSold]
    omega

/-- What an event is normalised to, when it tells about a change of the reserves from `st` to
`st'`: the absolute changes of the net quote and of the tracked tokens. Only the price of
the trade can stand in the way. -/
def Decodes (e : Curve.Event) (side : TradeSide) (st st' : Curve.State) : Prop :=
  ∀ log timestamp binding, ∃ event, decodeCurveEvent log e = some event ∧
    ((∃ trade, normalizeCurve ⟨event, timestamp⟩ binding = .ok trade) ↔
      Priced |(st'.reserves.trackedTokens : ℤ) - st.reserves.trackedTokens|
        |(st'.netQuote : ℤ) - st.netQuote| binding.quoteDecimals) ∧
    ∀ trade, normalizeCurve ⟨event, timestamp⟩ binding = .ok trade → trade.side = side ∧
      trade.memeRaw = |(st'.reserves.trackedTokens : ℤ) - st.reserves.trackedTokens| ∧
      trade.quoteRaw = |(st'.netQuote : ℤ) - st.netQuote|

/-- The absolute changes a trade event reports are its amounts. -/
theorem Trade.abs_eq {e : Curve.Event} {side : TradeSide} {st st' : Curve.State}
    (h : Trade e side st st') :
    |(st'.reserves.trackedTokens : ℤ) - st.reserves.trackedTokens| = sign side * tokensSold e ∧
      |(st'.netQuote : ℤ) - st.netQuote| = sign side * quoteChange e := by
  have hquoteEq := h.quote
  have htokensEq := h.tokens
  rcases h.event with ⟨rfl, _, _, _, _, _, _, rfl, htokens, hquote, -⟩ |
    ⟨rfl, _, _, _, _, _, _, rfl, htokens, hquote, -⟩
  all_goals
    simp only [sign, tokensSold, quoteChange, Int.abs_eq_natAbs] at hquoteEq htokensEq ⊢
    omega

/-- They are also the absolute values of what the event reports. -/
theorem Trade.abs_eq_abs {e : Curve.Event} {side : TradeSide} {st st' : Curve.State}
    (h : Trade e side st st') :
    |(st'.reserves.trackedTokens : ℤ) - st.reserves.trackedTokens| = |tokensSold e| ∧
      |(st'.netQuote : ℤ) - st.netQuote| = |quoteChange e| := by
  have hquote : (st'.netQuote : ℤ) - st.netQuote = quoteChange e := by
    have := h.quote
    omega
  have htokens : (st'.reserves.trackedTokens : ℤ) - st.reserves.trackedTokens = -tokensSold e := by
    have := h.tokens
    omega
  rw [hquote, htokens, abs_neg]
  exact ⟨rfl, rfl⟩

/-- **A trade event decodes to the change of the reserves it was emitted for.** -/
theorem decodes_of_trade {e : Curve.Event} {side : TradeSide} {st st' : Curve.State}
    (h : Trade e side st st') : Decodes e side st st' := by
  intro log timestamp binding
  rw [h.abs_eq.1, h.abs_eq.2]
  rcases h.event with ⟨rfl, sender, recipient, quoteSpent, tokensOut, fee, surcharge, rfl, htokens,
    hquote, htokensLe, hquoteLe⟩ | ⟨rfl, sender, recipient, tokensIn, quoteOut, fee, surcharge, rfl,
    htokens, hquote, htokensLe, hquoteLe⟩
  all_goals have hmax : maxUint256 < 2 ^ 256 := by decide
  · have hspec := normalizeCurve_spec
      ⟨⟨.tickerGardenCurve, .curveBuy, args [(.buyer, .address sender),
        (.recipient, .address recipient), (.quoteIn, .bigint quoteSpent),
        (.tokensOut, .bigint tokensOut), (.fee, .bigint fee), (.tax, .bigint surcharge)], log⟩,
        timestamp⟩ binding true tokensOut quoteSpent fee surcharge
      (quoteSpent - fee - surcharge) (by simp) rfl rfl rfl rfl rfl rfl rfl
      ⟨by omega, by omega, by omega, by omega⟩ ⟨htokens, by omega, by omega⟩
    refine ⟨_, rfl, ?_⟩
    simpa only [sign, quoteChange, tokensSold, one_mul, if_true] using hspec
  · have hspec := normalizeCurve_spec
      ⟨⟨.tickerGardenCurve, .curveSell, args [(.seller, .address sender),
        (.recipient, .address recipient), (.tokensIn, .bigint tokensIn),
        (.quoteOut, .bigint quoteOut), (.fee, .bigint fee), (.tax, .bigint surcharge)], log⟩,
        timestamp⟩ binding false tokensIn quoteOut fee surcharge
      (quoteOut + fee + surcharge) (by simp) rfl rfl rfl rfl rfl rfl rfl
      ⟨by omega, by omega, by omega, by omega⟩ ⟨htokens, hquote, by omega⟩
    refine ⟨_, rfl, ?_⟩
    simpa only [sign, quoteChange, tokensSold, neg_mul, one_mul, neg_neg, if_false,
      Bool.false_eq_true] using hspec

end Curve

/-! ### A history of events -/

/-- The observations of a history: the trades among its events, the `n`-th event of the
curve being at `place n`. -/
def observations (place : ℕ → RpcLog × ℕ) : ℕ → List Curve.Event → List EventObservation
  | _, [] => []
  | n, e :: events =>
    ((decodeCurveEvent (place n).1 e).map fun event => ⟨event, (place n).2⟩).toList
      ++ observations place (n + 1) events

/-- The trades of a history, as they are normalised one by one. -/
def decodeHistory (place : ℕ → RpcLog × ℕ) (binding : MarketBinding) (events : List Curve.Event) :
    Except JsError (List TradeActivity) :=
  (observations place 0 events).mapM (normalizeCurve · binding)

/-- The signed sum of the quote of trades. -/
def signedQuote (trades : List TradeActivity) : ℤ :=
  (trades.map fun trade => sign trade.side * trade.quoteRaw).sum

/-- The signed sum of the tokens of trades. -/
def signedMeme (trades : List TradeActivity) : ℤ :=
  (trades.map fun trade => sign trade.side * trade.memeRaw).sum

/-- The change of the net quote that events report. -/
def quoteTotal (events : List Curve.Event) : ℤ := (events.map quoteChange).sum

/-- The tokens that events report as sold. -/
def tokensTotal (events : List Curve.Event) : ℤ := (events.map tokensSold).sum

/-- Every trade among the events tells about some change of reserves. -/
def AllTrades (events : List Curve.Event) : Prop :=
  ∀ e ∈ events, isTrade e = true → ∃ side st st', Trade e side st st'

theorem quoteTotal_append (l l' : List Curve.Event) :
    quoteTotal (l ++ l') = quoteTotal l + quoteTotal l' := by
  simp [quoteTotal]

theorem tokensTotal_append (l l' : List Curve.Event) :
    tokensTotal (l ++ l') = tokensTotal l + tokensTotal l' := by
  simp [tokensTotal]

/-- Events that are no trades report nothing. -/
theorem totals_of_filter (events : List Curve.Event) :
    quoteTotal events = quoteTotal (events.filter isTrade) ∧
      tokensTotal events = tokensTotal (events.filter isTrade) := by
  induction events with
  | nil => exact ⟨rfl, rfl⟩
  | cons e events ih =>
    simp only [quoteTotal, tokensTotal] at ih ⊢
    cases e <;> simp [List.filter_cons, isTrade, quoteChange, tokensSold, ih.1, ih.2]

theorem sign_mul_sign (side : TradeSide) (n : ℤ) : sign side * (sign side * n) = n := by
  cases side <;> simp [sign]

/-- An event that is no trade is not decoded. -/
theorem decodeCurveEvent_eq_none {e : Curve.Event} (log : RpcLog) (h : isTrade e = false) :
    decodeCurveEvent log e = none ∧ quoteChange e = 0 ∧ tokensSold e = 0 := by
  cases e with
  | curveBuy _ _ _ _ _ _ => cases h
  | curveSell _ _ _ _ _ _ => cases h
  | curveBuyRefunded _ _ => exact ⟨rfl, rfl, rfl⟩
  | curveFeeTransferred _ _ _ _ => exact ⟨rfl, rfl, rfl⟩
  | curveCompleted _ => exact ⟨rfl, rfl, rfl⟩

/-- **A decoded history adds up to what its events report**, and it is decoded exactly when
each of its trades has a price. -/
theorem decodeHistory_spec {place : ℕ → RpcLog × ℕ} {binding : MarketBinding}
    {events : List Curve.Event} (h : AllTrades events) (n : ℕ) :
    ((∃ trades, (observations place n events).mapM (normalizeCurve · binding) = .ok trades) ↔
      ∀ e ∈ events, isTrade e = true → Priced |tokensSold e| |quoteChange e|
        binding.quoteDecimals) ∧
    ∀ trades, (observations place n events).mapM (normalizeCurve · binding) = .ok trades →
      signedQuote trades = quoteTotal events ∧ signedMeme trades = tokensTotal events := by
  induction events generalizing n with
  | nil => simp [observations, signedQuote, signedMeme, quoteTotal, tokensTotal]
  | cons e events ih =>
    obtain ⟨hiff, hsum⟩ := ih (fun x hx => h x (List.mem_cons_of_mem _ hx)) (n + 1)
    cases htrade : isTrade e with
    | false =>
      obtain ⟨hnone, hquote, htokens⟩ := decodeCurveEvent_eq_none (place n).1 htrade
      simp only [observations, hnone, Option.map_none, Option.toList_none, List.nil_append,
        List.forall_mem_cons, htrade, Bool.false_eq_true, false_implies, true_and]
      refine ⟨hiff, fun trades htrades => ?_⟩
      obtain ⟨hq, hm⟩ := hsum trades htrades
      simp only [quoteTotal, tokensTotal] at hq hm
      simp [quoteTotal, tokensTotal, hq, hm, hquote, htokens]
    | true =>
      obtain ⟨side, st, st', htrade'⟩ := h e List.mem_cons_self htrade
      obtain ⟨event, hevent, hpriced, hamounts⟩ :=
        decodes_of_trade htrade' (place n).1 (place n).2 binding
      rw [htrade'.abs_eq_abs.1, htrade'.abs_eq_abs.2] at hpriced
      rw [htrade'.abs_eq.1, htrade'.abs_eq.2] at hamounts
      simp only [observations, hevent, Option.map_some, Option.toList_some, List.singleton_append,
        List.mapM_cons, bind_eq_ok, pure_eq_ok, Except.ok.injEq, List.forall_mem_cons, htrade,
        true_implies]
      refine ⟨?_, ?_⟩
      · rw [← hpriced, ← hiff]
        constructor
        · rintro ⟨_, trade, hone, trades, hrest, -⟩
          exact ⟨⟨trade, hone⟩, trades, hrest⟩
        · rintro ⟨⟨trade, hone⟩, trades, hrest⟩
          exact ⟨_, trade, hone, trades, hrest, rfl⟩
      · rintro _ ⟨trade, hone, trades, hrest, rfl⟩
        obtain ⟨hq, hm⟩ := hsum trades hrest
        obtain ⟨hside, hmeme, hquote⟩ := hamounts trade hone
        simp only [signedQuote, signedMeme, quoteTotal, tokensTotal] at hq hm ⊢
        simp only [List.map_cons, List.sum_cons, hq, hm, hside, hmeme, hquote, sign_mul_sign,
          and_self]

/-! ### Runs -/

section Runs

variable {W : Type} {platform : Platform} {calls : Externals W} {imm : Immutables}
  {s s' t : System W} {events : List Curve.Event}

/-- A sweep emits no trade. -/
theorem filter_sweepFees {view : MarketView}
    (h : sweepFees platform calls imm view s = .ok (s', events)) : events.filter isTrade = [] := by
  unfold sweepFees at h
  dsimp only at h
  split at h
  · simp only [pure_eq_ok, Except.ok.injEq, Prod.mk.injEq] at h
    obtain ⟨-, rfl⟩ := h
    rfl
  · simp only [bind_eq_ok, pure_eq_ok, Except.ok.injEq, Prod.mk.injEq] at h
    obtain ⟨-, -, swept, -, t, -, -, rfl⟩ := h
    rfl

/-- **A buy emits one trade event**, whether it completes the curve or not: it tells about
the change of the reserves up to a graduation, in which nothing is traded. -/
theorem trade_of_buy {call : Call} {quoteIn minOut : ℕ} {recipient : Address}
    (hs : Collateralised imm s.curve)
    (h : buy platform calls imm call s quoteIn minOut recipient = .ok (s', events)) :
    ∃ traded bought e, buyTrade calls imm call s quoteIn minOut recipient = .ok (traded, bought) ∧
      events.filter isTrade = [e] ∧ Trade e .buy s.curve traded.curve ∧
      (traded.curve.completed = false ∧ s' = traded ∨
        traded.curve.completed = true ∧ s'.curve.completed = true) := by
  obtain ⟨traded, bought, htrade, hcases⟩ := buy_cases h
  obtain ⟨e, hfilter, he⟩ := trade_of_buyTrade hs htrade
  refine ⟨traded, bought, e, htrade, ?_⟩
  rcases hcases with ⟨hopen, rfl, rfl⟩ | ⟨hdone, more, hfinal, rfl⟩
  · exact ⟨hfilter, he, .inl ⟨hopen, rfl⟩⟩
  · obtain ⟨view, swept, hsweep, hcurve⟩ := finalizeLaunch_curve hfinal
    have hacc := (buyTrade_collateral hs htrade).1
    refine ⟨?_, he, .inr ⟨hdone, ?_⟩⟩
    · rw [List.filter_append, List.filter_append, hfilter, filter_sweepFees hsweep]
      rfl
    · rw [hcurve]
      exact (sweepFees_collateral hacc hsweep).2.2.2.2.2.trans hdone

/-- A curve as the buy that completes it leaves it, before it is graduated. -/
def SoldOut (platform : Platform) (calls : Externals W) (imm : Immutables) (u : System W) : Prop :=
  u.curve.completed = true ∧ ∃ s call quoteIn minOut recipient events,
    Reachable platform calls imm s ∧
      buyTrade calls imm call s quoteIn minOut recipient = .ok (u, events)

/-- **What the events of a run add up to**: the net quote and the sold tokens of the curve,
or, once it has completed, of the curve as it was sold out. -/
structure Reconstructs (platform : Platform) (calls : Externals W) (imm : Immutables)
    (events : List Curve.Event) (t : System W) : Prop where
  allTrades : AllTrades events
  trading : t.curve.completed = false → quoteTotal events = t.curve.netQuote ∧
    tokensTotal events = imm.initialSupply - t.curve.reserves.trackedTokens
  completed : t.curve.completed = true → ∃ u, SoldOut platform calls imm u ∧
    quoteTotal events = u.curve.netQuote ∧
    tokensTotal events = imm.initialSupply - u.curve.reserves.trackedTokens

theorem allTrades_append {l l' : List Curve.Event} (h : AllTrades l) (h' : AllTrades l') :
    AllTrades (l ++ l') := by
  intro e he htrade
  rcases List.mem_append.mp he with he | he
  · exact h e he htrade
  · exact h' e he htrade

/-- Events without a trade change no sum. -/
theorem Reconstructs.quiet {before : List Curve.Event}
    (hs : Reconstructs platform calls imm before s) (hevents : events.filter isTrade = [])
    (hnet : t.curve.netQuote = s.curve.netQuote)
    (htokens : t.curve.reserves.trackedTokens = s.curve.reserves.trackedTokens)
    (hcompleted : t.curve.completed = s.curve.completed) :
    Reconstructs platform calls imm (before ++ events) t := by
  have hnone : AllTrades events := fun e he htrade => by
    have : e ∈ events.filter isTrade := List.mem_filter.mpr ⟨he, htrade⟩
    rw [hevents] at this
    exact absurd this List.not_mem_nil
  have hquote : quoteTotal (before ++ events) = quoteTotal before := by
    rw [quoteTotal_append, (totals_of_filter events).1, hevents]
    exact add_zero _
  have hmeme : tokensTotal (before ++ events) = tokensTotal before := by
    rw [tokensTotal_append, (totals_of_filter events).2, hevents]
    exact add_zero _
  refine ⟨allTrades_append hs.allTrades hnone, fun hopen => ?_, fun hdone => ?_⟩
  · rw [hquote, hmeme, hnet, htokens]
    exact hs.trading (hcompleted.symm.trans hopen)
  · rw [hquote, hmeme]
    exact hs.completed (hcompleted.symm.trans hdone)

/-- A trade moves the sums as it moves the reserves. -/
theorem Reconstructs.trade {before : List Curve.Event} {e : Curve.Event} {side : TradeSide}
    {st : Curve.State} (hs : Reconstructs platform calls imm before s)
    (hopen : s.curve.completed = false) (hevents : events.filter isTrade = [e])
    (he : Trade e side s.curve st) :
    AllTrades (before ++ events) ∧ quoteTotal (before ++ events) = st.netQuote ∧
      tokensTotal (before ++ events) = imm.initialSupply - st.reserves.trackedTokens := by
  obtain ⟨hquote, hmeme⟩ := hs.trading hopen
  have hone : AllTrades events := fun x hx htrade => by
    have : x ∈ events.filter isTrade := List.mem_filter.mpr ⟨hx, htrade⟩
    rw [hevents, List.mem_singleton] at this
    exact ⟨side, s.curve, st, this ▸ he⟩
  have heq := he.quote
  have hte := he.tokens
  refine ⟨allTrades_append hs.allTrades hone, ?_, ?_⟩
  · rw [quoteTotal_append, (totals_of_filter events).1, hevents, hquote, heq]
    exact congrArg _ (add_zero _)
  · rw [tokensTotal_append, (totals_of_filter events).2, hevents, hmeme]
    simp only [tokensTotal, List.map_cons, List.map_nil, List.sum_cons, List.sum_nil]
    omega

/-- **The step lemma**: what a step emits keeps the sums in line with the reserves. -/
theorem reconstructs_of_step {before : List Curve.Event} (hreach : Reachable platform calls imm s)
    (hs : Reconstructs platform calls imm before s) (h : Step platform calls imm s events t) :
    Reconstructs platform calls imm (before ++ events) t := by
  have hc := collateralised_of_reachable hreach
  cases h with
  | buy call quoteIn minOut recipient hcaller h =>
    obtain ⟨traded, bought, e, htrade, hevents, he, hcases⟩ := trade_of_buy hc h
    obtain ⟨hall, hquote, hmeme⟩ := hs.trade (buyTrade_curve htrade).1 hevents he
    rcases hcases with ⟨hopen, rfl⟩ | ⟨hsold, hdone⟩
    · refine ⟨hall, fun _ => ⟨hquote, hmeme⟩, fun hdone => ?_⟩
      rw [hopen] at hdone
      exact absurd hdone (by decide)
    · refine ⟨hall, fun hopen => ?_, fun _ => ⟨traded, ⟨hsold, _, _, _, _, _, _, hreach, htrade⟩,
        hquote, hmeme⟩⟩
      rw [hdone] at hopen
      exact absurd hopen (by decide)
  | sell call tokensIn minOut recipient hcaller h =>
    obtain ⟨hopen, -⟩ := sell_curve h
    have hopen' : t.curve.completed = false := by
      obtain ⟨-, q, hq, hreal, hcurve⟩ := sell_curve h
      rw [(applySell_spec hc.toAccounted (sellQuote_sound hq) hreal hcurve).2.2.2.2.2, hopen]
    obtain ⟨e, rfl, he⟩ := trade_of_sell hc h
    have hfilter : [e].filter isTrade = [e] := by
      rcases he.event with ⟨-, _, _, _, _, _, _, rfl, -⟩ | ⟨-, _, _, _, _, _, _, rfl, -⟩ <;> rfl
    obtain ⟨hall, hquote, hmeme⟩ := hs.trade hopen hfilter he
    refine ⟨hall, fun _ => ⟨hquote, hmeme⟩, fun hdone => ?_⟩
    rw [hopen'] at hdone
    exact absurd hdone (by decide)
  | sweep call h =>
    simp only [sweepCurveFees, bind_eq_ok] at h
    obtain ⟨-, -, view, -, -, -, hsweep⟩ := h
    obtain ⟨-, hnet, -, htokens, -, hcompleted⟩ := sweepFees_collateral hc.toAccounted hsweep
    exact hs.quiet (filter_sweepFees hsweep) hnet htokens hcompleted
  | environment rest balances h => exact hs.quiet rfl rfl rfl rfl

/-- Nothing has happened to a deployed curve. -/
theorem reconstructs_init (h : Init imm s) : Reconstructs platform calls imm [] s := by
  obtain ⟨reserves, hreserves, hcurve, -⟩ := h
  obtain ⟨R, sellable, -, rfl⟩ := SupplyMath.initializeReserves_eq_ok hreserves
  refine ⟨fun e he => absurd he List.not_mem_nil, fun _ => ?_, fun hdone => ?_⟩
  · rw [hcurve]
    simp [quoteTotal, tokensTotal, State.netQuote]
  · rw [hcurve] at hdone
    exact absurd hdone Bool.false_ne_true

/-- **The events of a run reconstruct the reserves.** -/
theorem reconstructs_of_run {es : List (List Curve.Event)} (hinit : Init imm s)
    (h : Transition.Run (Step platform calls imm) s es t) :
    Reconstructs platform calls imm es.flatten t := by
  have hrun := h.invariant_history
    (I := fun es u => Reachable platform calls imm u ∧ Reconstructs platform calls imm es.flatten u)
    (fun es u events v ⟨hu, hes⟩ hstep => by
      refine ⟨hu.next hstep, ?_⟩
      rw [List.flatten_append, List.flatten_singleton]
      exact reconstructs_of_step hu hes hstep)
    ⟨Transition.Reachable.of_init hinit, reconstructs_init hinit⟩
  exact hrun.2

/-- **Curve decoding reconstructs the reserves.** In the state `t` at the end of any run from
a deployment:

* every buy and every sell that goes through emits exactly one trade event, and it decodes
  to the absolute changes of the net quote and of the tracked tokens, which for a buy are
  those up to a graduation; decoding fails only for a trade whose price is not a fraction
  of words, or in a quote without the decimals of a registered one;
* the trades of the whole history are decoded unless one of them has no such price, and
  then their signed sums are the net quote and the sold tokens of the curve – or, once it
  has completed and handed its reserves over, of the curve as it was sold out. -/
theorem curve_decoding {es : List (List Curve.Event)} (hinit : Init imm s)
    (h : Transition.Run (Step platform calls imm) s es t) :
    (∀ call quoteIn minOut recipient u events,
      buy platform calls imm call t quoteIn minOut recipient = .ok (u, events) →
      ∃ traded bought e, buyTrade calls imm call t quoteIn minOut recipient = .ok (traded, bought) ∧
        events.filter isTrade = [e] ∧ Decodes e .buy t.curve traded.curve ∧
        (traded.curve.completed = false ∧ u = traded ∨
          traded.curve.completed = true ∧ u.curve.completed = true)) ∧
    (∀ call tokensIn minOut recipient u events,
      sell calls imm call t tokensIn minOut recipient = .ok (u, events) →
      ∃ e, events = [e] ∧ Decodes e .sell t.curve u.curve) ∧
    ∀ place binding,
      ((∃ trades, decodeHistory place binding es.flatten = .ok trades) ↔
        ∀ e ∈ es.flatten, isTrade e = true →
          Priced |tokensSold e| |quoteChange e| binding.quoteDecimals) ∧
      ∀ trades, decodeHistory place binding es.flatten = .ok trades →
        (t.curve.completed = false → signedQuote trades = t.curve.netQuote ∧
          signedMeme trades = imm.initialSupply - t.curve.reserves.trackedTokens) ∧
        (t.curve.completed = true → ∃ u, SoldOut platform calls imm u ∧
          signedQuote trades = u.curve.netQuote ∧
          signedMeme trades = imm.initialSupply - u.curve.reserves.trackedTokens) := by
  have hs := collateralised_of_reachable ⟨s, es, hinit, h⟩
  have hes := reconstructs_of_run hinit h
  refine ⟨?_, ?_, fun place binding => ?_⟩
  · intro call quoteIn minOut recipient u events hbuy
    obtain ⟨traded, bought, e, htrade, hevents, he, hcases⟩ := trade_of_buy hs hbuy
    exact ⟨traded, bought, e, htrade, hevents, decodes_of_trade he, hcases⟩
  · intro call tokensIn minOut recipient u events hsell
    obtain ⟨e, hevents, he⟩ := trade_of_sell hs hsell
    exact ⟨e, hevents, decodes_of_trade he⟩
  · obtain ⟨hiff, hsum⟩ := decodeHistory_spec hes.allTrades 0
    refine ⟨hiff, fun trades htrades => ?_⟩
    obtain ⟨hquote, hmeme⟩ := hsum trades htrades
    rw [hquote, hmeme]
    exact ⟨hes.trading, hes.completed⟩

end Runs

/-! ### The small market, decoded -/

namespace Sample

/-- A log of the curve. -/
def log : RpcLog :=
  ⟨7, 1, 1, 1, 0, 0, zero_le_maxSafeInteger, zero_le_maxSafeInteger⟩

/-- The binding of the curve's market, in the native currency. -/
def binding : MarketBinding := ⟨4663, 1, 5, 0, 18, 7⟩

/-- The events of the buy that completes the curve. -/
def events : List Curve.Event :=
  (value Curve.Sample.completingBuy Curve.Sample.completingBuy_isOk).2

theorem run_completingBuy : Transition.Run
    (Step DocumentedV4.platform Curve.Sample.calls Curve.Sample.imm) Curve.Sample.start [events]
    Curve.Sample.graduated :=
  Transition.Run.single (Step.buy Curve.Sample.call 200 1 20 (by decide)
    (eq_ok_value Curve.Sample.completingBuy_isOk))

theorem events_eq : events = [.curveBuyRefunded 20 97, .curveBuy 20 20 103 200 1 0,
    .curveFeeTransferred 1 1 (Curve.sweepFeeId DocumentedV4.platform Curve.Sample.imm 1 1 1 0) 1,
    .curveCompleted 1] := by decide +kernel

/-- A baseline of four tokens. -/
def baseline : TickerGardenBaseline :=
  ⟨4663, 0, 0, 0, 4, 100, 0, 1, 0, configStatusActive⟩

/-- An economics in which two of them are sold, for about `2 ^ 126`. -/
def quoteConfig : QuoteAssetConfig := ⟨2, 0, 18, 2 ^ 126, 2 ^ 126, 3, configStatusActive⟩

theorem validate_isOk :
    EconomicDomain.validate DocumentedV4.platform baseline quoteConfig = .ok () := by
  decide +kernel

/-- The curve of that economics. -/
def tiny : Immutables :=
  { Curve.Sample.imm with
    initialSupply := baseline.supply
    phantomQuote := quoteConfig.phantomQuote
    graduationThreshold := quoteConfig.graduationThreshold }

/-- Account 20 has `2 ^ 200` of the native currency. -/
def tinyStart : System Bool where
  rest := false
  balances := fun asset holder =>
    if asset = 5 ∧ holder = 7 then 4 else if asset = 0 ∧ holder = 20 then 2 ^ 200 else 0
  curve := {
    reserves := { trackedQuote := 0, trackedTokens := 4, accruedQuoteFees := 0, reservedTokens := 2 }
    accruedCreatorTax := 0, sweepNonce := 0, hasExecutedTrade := false, completed := false }

theorem init_tinyStart : Init tiny tinyStart :=
  ⟨⟨0, 4, 0, 2⟩, by rfl, rfl, by decide⟩

/-- The most that is taken for one token of four: with its fee, what the reserve is priced at. -/
def offer (s : System Bool) : ℕ := (tiny.phantomQuote + s.curve.netQuote - 1) * 10000 / 9900

/-- One token is bought for that. -/
def buyOne (s : System Bool) : Except Revert (System Bool × List Curve.Event) :=
  buy DocumentedV4.platform Curve.Sample.calls tiny
    { caller := 20, value := offer s, timestamp := 100 } s (offer s) 1 20

/-- And sold again. The quotes round in favour of the reserve, which grows by a half. -/
def round (s : System Bool) : Except Revert (System Bool) := do
  let (s, _) ← buyOne s
  let (s, _) ← sell Curve.Sample.calls tiny { caller := 20, value := 0, timestamp := 100 } s 1 0 20
  return s

/-- A number of rounds, one after another. -/
def rounds : ℕ → System Bool → Except Revert (System Bool)
  | 0, s => .ok s
  | n + 1, s => do rounds n (← round s)

theorem reachable_rounds {n : ℕ} {s t : System Bool} (h : rounds n s = .ok t)
    (hs : Curve.Reachable DocumentedV4.platform Curve.Sample.calls tiny s) :
    Curve.Reachable DocumentedV4.platform Curve.Sample.calls tiny t := by
  induction n generalizing s with
  | zero => exact Except.ok.inj h ▸ hs
  | succ n ih =>
    obtain ⟨s', hround, h⟩ := bind_eq_ok.mp h
    obtain ⟨⟨bought, _⟩, hbuy, hround⟩ := bind_eq_ok.mp hround
    obtain ⟨⟨sold, _⟩, hsell, hround⟩ := bind_eq_ok.mp hround
    cases hround
    have hcaller : (20 : Address) ≠ tiny.self := by decide
    exact ih h ((hs.next (Step.buy _ _ _ _ hcaller hbuy)).next (Step.sell _ _ _ _ hcaller hsell))

/-- Whether the service refuses an event of a buy. -/
def refused (bought : System Bool × List Curve.Event) : Bool :=
  bought.2.any fun e => (decodeCurveEvent log e).any fun event =>
    !(normalizeCurve ⟨event, 0⟩ binding).isOk

/-- The buy after 121 rounds. -/
def lastBuy : Except Revert (System Bool × List Curve.Event) := do buyOne (← rounds 121 tinyStart)

/-- Its price is not a fraction of words any more. -/
theorem refused_lastBuy : lastBuy.toOption.any refused = true := by decide +kernel

theorem exists_refused : ∃ s u events e event,
    Curve.Reachable DocumentedV4.platform Curve.Sample.calls tiny s ∧
      buyOne s = .ok (u, events) ∧ e ∈ events ∧ decodeCurveEvent log e = some event ∧
      (normalizeCurve ⟨event, 0⟩ binding).isOk = false := by
  have hrefused := refused_lastBuy
  cases hbought : lastBuy with
  | error e =>
    rw [hbought] at hrefused
    cases hrefused
  | ok bought =>
    obtain ⟨s, hrounds, hbuy⟩ := bind_eq_ok.mp hbought
    rw [hbought] at hrefused
    obtain ⟨e, he, hdecoded⟩ := List.any_eq_true.mp hrefused
    obtain ⟨event, hevent, hfails⟩ := (Option.any_eq_true _ _).mp hdecoded
    refine ⟨s, bought.1, bought.2, e, event,
      reachable_rounds hrounds (Transition.Reachable.of_init init_tinyStart), hbuy, he, hevent, ?_⟩
    rwa [Bool.not_eq_true'] at hfails

/-- The trade of the completing buy has a price. -/
theorem priced_events : ∀ e ∈ [events].flatten, isTrade e = true →
    Priced |tokensSold e| |quoteChange e| binding.quoteDecimals := by
  rw [List.flatten_singleton, events_eq]
  intro e he htrade
  simp only [List.mem_cons, List.not_mem_nil, or_false] at he
  rcases he with rfl | rfl | rfl | rfl
  · cases htrade
  · exact ⟨by decide, by decide, by decide, by decide⟩
  · cases htrade
  · cases htrade

end Sample

/-- **Neither half holds without the conditions.** The trade that completes the small market
adds up to 102, and the curve it leaves tracks nothing; and a curve of an admitted economics reaches
a buy with an event whose normalisation throws, once its reserve has grown by what the quotes round
away. -/
theorem curve_decoding_fails :
    (¬ ∀ es t trades, Transition.Run
        (Step DocumentedV4.platform Curve.Sample.calls Curve.Sample.imm) Curve.Sample.start es t →
      decodeHistory (fun _ => (Sample.log, 0)) Sample.binding es.flatten = .ok trades →
      signedQuote trades = t.curve.netQuote) ∧
    EconomicDomain.validate DocumentedV4.platform Sample.baseline Sample.quoteConfig = .ok () ∧
    ¬ ∀ s call quoteIn minOut recipient u events e event,
      Curve.Reachable DocumentedV4.platform Curve.Sample.calls Sample.tiny s →
      buy DocumentedV4.platform Curve.Sample.calls Sample.tiny call s quoteIn minOut recipient
        = .ok (u, events) →
      e ∈ events → decodeCurveEvent Sample.log e = some event →
      ∃ trade, normalizeCurve ⟨event, 0⟩ Sample.binding = .ok trade := by
  refine ⟨fun h => ?_, Sample.validate_isOk, fun h => ?_⟩
  · have hes := reconstructs_of_run Curve.Sample.init_start Sample.run_completingBuy
    obtain ⟨hiff, hsum⟩ := @decodeHistory_spec (fun _ => (Sample.log, 0)) Sample.binding _
      hes.allTrades 0
    obtain ⟨trades, htrades⟩ := hiff.mpr Sample.priced_events
    have hfalse := h _ _ trades Sample.run_completingBuy htrades
    rw [(hsum trades htrades).1] at hfalse
    revert hfalse
    decide +kernel
  · obtain ⟨s, u, events, e, event, hs, hbuy, he, hevent, hfails⟩ := Sample.exists_refused
    obtain ⟨trade, htrade⟩ := h s _ _ _ _ u events e event hs hbuy he hevent
    rw [htrade] at hfails
    cases hfails

/-- The history of the small market, decoded: its sums are those of the curve as the
completing buy sold it out. -/
theorem curve_decoding_sample :
    ∃ trades, decodeHistory (fun _ => (Sample.log, 0)) Sample.binding [Sample.events].flatten
        = .ok trades ∧
      ∃ u, SoldOut DocumentedV4.platform Curve.Sample.calls Curve.Sample.imm u ∧
        signedQuote trades = u.curve.netQuote ∧
        signedMeme trades = Curve.Sample.imm.initialSupply - u.curve.reserves.trackedTokens := by
  obtain ⟨hiff, hsum⟩ := (curve_decoding Curve.Sample.init_start Sample.run_completingBuy).2.2
    (fun _ => (Sample.log, 0)) Sample.binding
  obtain ⟨trades, htrades⟩ := hiff.mpr Sample.priced_events
  exact ⟨trades, htrades, (hsum trades htrades).2 (by decide +kernel)⟩

end CurveDecoding

end Backend

end TickerGarden
