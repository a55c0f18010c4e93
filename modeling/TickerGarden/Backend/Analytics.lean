import TickerGarden.Backend.Decoded

/-!
# Trades of the curve, normalised

`normalizeCurve` of the analytics service: what a trade of a curve is recorded as. The
event of a buy reports the gross quote, of which the two fees have to be taken off; that of
a sell reports what was paid out, to which they have to be added back.

The decimal strings of a `TickerGarden.Backend.Analytics.TradeActivity` are kept as the
integers they write.
-/

namespace TickerGarden

namespace Backend

namespace Analytics

/-- `TradeSource`. The key of an event is its chain, transaction and position. -/
structure TradeSource where
  chainId : ℕ
  blockNumber : ℕ
  blockHash : Bytes32
  transactionHash : Bytes32
  transactionIndex : ℕ
  logIndex : ℕ
  emitter : Address
  eventKey : ℕ × Bytes32 × ℕ
deriving DecidableEq

/-- A fraction in lowest terms. -/
structure CandlePrice where
  numerator : ℕ
  denominator : ℕ
deriving DecidableEq

/-- Where a trade is made: on the curve of its market, or in its pool. -/
inductive Venue
  | curve
  | pool
deriving DecidableEq

/-- Whether the market's token is bought or sold. -/
inductive TradeSide
  | buy
  | sell
deriving DecidableEq

/-- Whether a trade is made by the protocol itself, to convert rewards. -/
inductive TradeClassification
  | unclassified
  | internalRewardConversion
  | internalHolderConversion
deriving DecidableEq

/-- How much is known of who trades. -/
inductive ActorConfidence
  | contractCallerNotVerifiedWallet
  | unavailable
deriving DecidableEq

/-- What the amounts of a trade include. -/
inductive AmountBasis
  | curveExcludingFeeTax
  | poolCore
deriving DecidableEq

/-- Where the fee of a trade is known from, if it is. -/
inductive FeeStatus
  | eventReported
  | pairedEvent
  | notProvided
deriving DecidableEq

/-- A normalised trade, of the curve or of the pool, as it is stored and shown. -/
structure TradeActivity where
  source : TradeSource
  venue : Venue
  marketId : Bytes32
  timestamp : ℕ
  side : TradeSide
  classification : TradeClassification
  actor : Option Address
  actorConfidence : ActorConfidence
  recipient : Option Address
  memeAsset : Address
  quoteAsset : Address
  quoteDecimals : ℕ
  memeRaw : ℤ
  quoteRaw : ℤ
  amountBasis : AmountBasis
  price : CandlePrice
  feeRaw : Option ℤ
  feeAsset : Option Address
  taxRaw : Option ℤ
  feeStatus : FeeStatus
deriving DecidableEq

/-- What a curve is known by, as far as its trades are normalised. -/
structure MarketBinding where
  chainId : ℕ
  marketId : Bytes32
  memeAsset : Address
  quoteAsset : Address
  quoteDecimals : ℕ
  curve : Address

/-- `uint256`: a value that is one. -/
def uint256 (value : Option ArgValue) (label : String) : Except JsError ℕ :=
  match value with
  | some (.bigint n) =>
    if n < 0 then throwJs (label ++ " is not uint256")
    else if n ≥ 2 ^ 256 then throwJs (label ++ " exceeds uint256")
    else .ok n.toNat
  | _ => throwJs (label ++ " is not uint256")

/-- `address`: a value that is one. -/
def address (value : Option ArgValue) (label : String) : Except JsError Address :=
  match value with
  | some (.address a) => .ok a
  | _ => throwJs (label ++ " is not an address")

/-- `gcd`: the loop of Euclid. -/
def gcd (a b : ℕ) : ℕ :=
  if b = 0 then a else gcd b (a % b)
termination_by b
decreasing_by exact Nat.mod_lt _ (Nat.pos_of_ne_zero ‹_›)

/-- `reducePrice`. -/
def reducePrice (numerator denominator : ℤ) : Except JsError CandlePrice := do
  let n ← uint256 (some (.bigint numerator)) "price numerator"
  let d ← uint256 (some (.bigint denominator)) "price denominator"
  throwIf (n = 0 ∨ d = 0) "zero price"
  let divisor := gcd n d
  throwIf (divisor = 0) "Division by zero"
  return { numerator := n / divisor, denominator := d / divisor }

/-- `price`: quote per whole meme token. -/
def price (meme quote : ℤ) (quoteDecimals : ℕ) : Except JsError CandlePrice := do
  throwIf (quoteDecimals < 6 ∨ quoteDecimals > 18) "invalid quote decimals"
  reducePrice (quote * 10 ^ 18) (meme * 10 ^ quoteDecimals)

/-- `source`. -/
def source (event : DecodedProtocolEvent) (chainId : ℕ) : Except JsError TradeSource := do
  let log := event.log
  let transactionIndex ← safeNumber log.transactionIndex "transaction index exceeds JSON integer"
  let logIndex ← safeNumber log.logIndex "log index exceeds JSON integer"
  return { chainId, blockNumber := log.blockNumber, blockHash := log.blockHash,
           transactionHash := log.transactionHash, transactionIndex, logIndex,
           emitter := log.address, eventKey := (chainId, log.transactionHash, log.logIndex) }

/-- **`normalizeCurve`**: a trade of a curve as an activity of its market. -/
def normalizeCurve (observation : EventObservation) (binding : MarketBinding) :
    Except JsError TradeActivity := do
  let event := observation.event
  let buy := event.eventName = .curveBuy
  let meme ← uint256 (event.args (if buy then .tokensOut else .tokensIn)) "curve meme amount"
  let cash ← uint256 (event.args (if buy then .quoteIn else .quoteOut)) "curve quote cash flow"
  let fee ← uint256 (event.args .fee) "curve fee"
  let tax ← uint256 (event.args .tax) "curve tax"
  let quote : ℤ := if buy then (cash : ℤ) - fee - tax else (cash : ℤ) + fee + tax
  throwIf (meme = 0 ∨ cash = 0 ∨ quote ≤ 0) "invalid curve trade amount"
  let actor ← address (event.args (if buy then .buyer else .seller)) "curve actor"
  let source ← source event binding.chainId
  let recipient ← address (event.args .recipient) "curve recipient"
  let price ← price meme quote binding.quoteDecimals
  return { source, venue := .curve, marketId := binding.marketId,
           timestamp := observation.timestamp, side := if buy then .buy else .sell,
           classification := .unclassified, actor := some actor,
           actorConfidence := .contractCallerNotVerifiedWallet, recipient := some recipient,
           memeAsset := binding.memeAsset, quoteAsset := binding.quoteAsset,
           quoteDecimals := binding.quoteDecimals, memeRaw := meme, quoteRaw := quote,
           amountBasis := .curveExcludingFeeTax, price, feeRaw := some fee,
           feeAsset := some binding.quoteAsset, taxRaw := some tax, feeStatus := .eventReported }

/-! ### When a trade has a price -/

/-- The loop of Euclid computes the greatest common divisor. -/
theorem gcd_eq (a b : ℕ) : gcd a b = Nat.gcd a b := by
  induction a, b using gcd.induct with
  | case1 a => simp [gcd]
  | case2 a b hb ih =>
    rw [gcd, if_neg hb, ih, Nat.gcd_comm b, Nat.gcd_comm a, Nat.gcd_rec b]

/-- A value that is a `uint256`, as one. -/
theorem uint256_of_lt {n : ℤ} (label : String) (h0 : 0 ≤ n) (hlt : n < 2 ^ 256) :
    uint256 (some (.bigint n)) label = .ok n.toNat := by
  rw [uint256, if_neg (by omega), if_neg (by omega)]

theorem uint256_eq_ok {n : ℤ} {label : String} {m : ℕ}
    (h : uint256 (some (.bigint n)) label = .ok m) : 0 ≤ n ∧ n < 2 ^ 256 ∧ (m : ℤ) = n := by
  unfold uint256 at h
  dsimp only at h
  split at h
  · cases h
  · split at h
    · cases h
    · obtain rfl := Except.ok.inj h
      omega

/-- **The amounts of a trade have a price**: the quote has the decimals of a registered
asset, and the two terms of the fraction are words. -/
structure Priced (meme quote : ℤ) (quoteDecimals : ℕ) : Prop where
  decimals_ge : 6 ≤ quoteDecimals
  decimals_le : quoteDecimals ≤ 18
  numerator_lt : quote * 10 ^ 18 < 2 ^ 256
  denominator_lt : meme * 10 ^ quoteDecimals < 2 ^ 256

/-- **Positive amounts are priced exactly when their fraction is one of words.** -/
theorem price_isOk {meme quote : ℤ} {quoteDecimals : ℕ} (hmeme : 0 < meme) (hquote : 0 < quote) :
    (∃ p, price meme quote quoteDecimals = .ok p) ↔ Priced meme quote quoteDecimals := by
  simp only [price, reducePrice, throwIf, Checked.bind_eq_ok, Checked.revertIf_eq_ok,
    Checked.pure_eq_ok, Except.ok.injEq, not_or, not_lt]
  constructor
  · rintro ⟨p, -, ⟨hge, hle⟩, n, hn, d, hd, -⟩
    obtain ⟨-, hnlt, -⟩ := uint256_eq_ok hn
    obtain ⟨-, hdlt, -⟩ := uint256_eq_ok hd
    exact ⟨hge, hle, hnlt, hdlt⟩
  · intro h
    have hnum : 0 < quote * 10 ^ 18 := by positivity
    have hden : 0 < meme * 10 ^ quoteDecimals := by positivity
    refine ⟨_, (), ⟨h.decimals_ge, h.decimals_le⟩, _, uint256_of_lt _ hnum.le h.numerator_lt, _,
      uint256_of_lt _ hden.le h.denominator_lt, (), ⟨by omega, by omega⟩, (), ?_, rfl⟩
    rw [gcd_eq]
    exact (Nat.gcd_pos_of_pos_left _ (by omega)).ne'

/-- **What normalising a trade comes down to**: with its arguments in place and its amounts
positive, only the price can fail. -/
theorem normalizeCurve_spec (o : EventObservation) (binding : MarketBinding) (buy : Bool)
    (meme cash fee tax : ℕ) (quote : ℤ) {actor recipient : Address}
    (hbuy : (o.event.eventName = .curveBuy) = (buy = true))
    (hmeme : o.event.args (if buy then .tokensOut else .tokensIn) = some (.bigint meme))
    (hcash : o.event.args (if buy then .quoteIn else .quoteOut) = some (.bigint cash))
    (hfee : o.event.args .fee = some (.bigint fee)) (htax : o.event.args .tax = some (.bigint tax))
    (hactor : o.event.args (if buy then .buyer else .seller) = some (.address actor))
    (hrecipient : o.event.args .recipient = some (.address recipient))
    (hquote : quote = if buy then (cash : ℤ) - fee - tax else (cash : ℤ) + fee + tax)
    (hwords : meme < 2 ^ 256 ∧ cash < 2 ^ 256 ∧ fee < 2 ^ 256 ∧ tax < 2 ^ 256)
    (hpos : 0 < meme ∧ 0 < cash ∧ 0 < quote) :
    ((∃ trade, normalizeCurve o binding = .ok trade) ↔ Priced meme quote binding.quoteDecimals) ∧
      ∀ trade, normalizeCurve o binding = .ok trade →
        trade.side = (if buy then .buy else .sell) ∧ trade.memeRaw = meme ∧
          trade.quoteRaw = quote := by
  have hword : ∀ {n : ℕ} (label : String), n < 2 ^ 256 →
      uint256 (some (.bigint n)) label = .ok n := fun {n} label hn => by
    rw [uint256_of_lt label (Int.natCast_nonneg n) (by exact_mod_cast hn), Int.toNat_natCast]
  have hguard : ¬(meme = 0 ∨ cash = 0 ∨ quote ≤ 0) := by omega
  obtain ⟨build, heq, hbuild⟩ : ∃ build : CandlePrice → TradeActivity,
      normalizeCurve o binding
        = (do let p ← price meme quote binding.quoteDecimals; pure (build p)) ∧
      ∀ p, (build p).side = (if buy then .buy else .sell) ∧ (build p).memeRaw = meme ∧
        (build p).quoteRaw = quote := by
    simp only [normalizeCurve, hbuy, hmeme, hcash, hfee, htax, hactor, hrecipient, ← hquote,
      hword _ hwords.1, hword _ hwords.2.1, hword _ hwords.2.2.1, hword _ hwords.2.2.2, source,
      address, throwIf, Checked.revertIf_neg hguard, safeNumber_transactionIndex,
      safeNumber_logIndex, Checked.ok_bind, Checked.pure_eq_ok]
    exact ⟨_, rfl, fun p => ⟨rfl, rfl, rfl⟩⟩
  rw [heq]
  simp only [Checked.bind_eq_ok, Checked.pure_eq_ok, Except.ok.injEq]
  constructor
  · rw [← price_isOk (by omega) (by omega)]
    constructor
    · rintro ⟨_, p, hp, -⟩
      exact ⟨p, hp⟩
    · rintro ⟨p, hp⟩
      exact ⟨_, p, hp, rfl⟩
  · rintro _ ⟨p, -, rfl⟩
    exact hbuild p

end Analytics

end Backend

end TickerGarden
