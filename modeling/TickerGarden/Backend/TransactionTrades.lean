import Mathlib.Data.List.Pairwise
import TickerGarden.Backend.CurveDecoding
import TickerGarden.Backend.PoolTrades
import TickerGarden.Fees.HookFees

/-!
# When a transaction is accepted

The logs of a transaction are those of the calls in it: trades of curves, swaps of the pools
of graduated markets with what their hook does after them, and anything else
(`TickerGarden.Backend.Analytics.Item`). The pool manager is not part of the protocol; of a
swap it is known that one currency is paid and the other received, that both changes are an
`int128`, and what fee it reports (`TickerGarden.Backend.Analytics.CoreSwap`).

A swap may pay something and receive nothing: a small amount rounds down. Its hook takes no
fee then, and `normalizePool` refuses it. That is the only thing about a swap that is refused:
a fee that rounds to nothing, either order of the currencies and either kind of swap are
accepted. So a transaction within the bound of the service whose curve trades are priced is
accepted exactly when its swaps move both currencies. The vault of the protocol converts
nothing, so that no log is the summary of a conversion.
-/

namespace TickerGarden

open Checked

namespace Backend

namespace Analytics

open CurveDecoding TickerGardenMemeHook

/-! ### What a transaction consists of -/

/-- `calculateSwapFee`: the fee of the pool manager and that of the liquidity, of what is left. -/
def swapFee (protocolFee lpFee : ℕ) : ℕ := protocolFee + lpFee - protocolFee * lpFee / 1000000

/-- **A swap as a pool manager carries it out.** -/
structure CoreSwap where
  params : SwapParams
  amount0 : ℤ
  amount1 : ℤ
  protocolFee : ℕ
  amount0_mem : -(2 ^ 127) ≤ amount0 ∧ amount0 ≤ 2 ^ 127 - 1
  amount1_mem : -(2 ^ 127) ≤ amount1 ∧ amount1 ≤ 2 ^ 127 - 1
  /-- One currency is paid, the other received. -/
  paid : if params.zeroForOne then amount0 ≤ 0 ∧ 0 ≤ amount1 else amount1 ≤ 0 ∧ 0 ≤ amount0
  protocolFee_le : protocolFee ≤ 1000

/-- **The pool of a graduated market**, and the binding the service knows it by. -/
structure Pool where
  binding : PooledBinding
  value : MarketView
  key : PoolKey
  poolId : Bytes32
  hookBinding : PoolBinding
  /-- The canonical key of the market. -/
  currencies : (key.currency0, key.currency1)
    = if value.config.quoteAsset < value.config.memeToken
      then (value.config.quoteAsset, value.config.memeToken)
      else (value.config.memeToken, value.config.quoteAsset)
  key_fee : key.fee = value.config.lpFeePips
  binding_marketId : binding.marketId = hookBinding.marketId
  binding_memeAsset : binding.memeAsset = value.config.memeToken
  binding_quoteAsset : binding.quoteAsset = value.config.quoteAsset
  binding_hook : binding.hook = key.hooks
  binding_poolId : binding.poolId = some poolId
  binding_lpFeePips : binding.lpFeePips = some key.fee
  binding_currency0 : binding.currency0 = some key.currency0
  binding_currency1 : binding.currency1 = some key.currency1
  /-- The decimals of an admitted quote asset. -/
  quoteDecimals_mem : 6 ≤ binding.quoteDecimals ∧ binding.quoteDecimals ≤ 18

/-- A swap of the pool of a graduated market: what the hook takes after it, what is logged
before the hook's event, and where. -/
structure PoolSwap (platform : Platform) (v : TickerGardenMemeHook.Immutables) where
  pool : Pool
  core : CoreSwap
  sender : Address
  fee : CalculatedV4Fee
  hookBinding : PoolBinding
  taken : prepareV4Fee platform v pool.poolId pool.hookBinding pool.value pool.key core.params
    core.amount0 core.amount1 = .ok (fee, hookBinding)
  inner : List EventObservation
  log : RpcLog
  feeLog : RpcLog
  feeLog_address : feeLog.address = pool.key.hooks
  timestamp : ℕ

/-- A trade of a curve, with the change of the reserves it tells. -/
structure CurveTrade where
  binding : PooledBinding
  event : Curve.Event
  side : TradeSide
  before : Curve.State
  after : Curve.State
  trade : Trade event side before after
  log : RpcLog
  log_address : log.address = binding.curve
  curve_ne : binding.curve ≠ 0
  timestamp : ℕ

/-- What happens in a transaction. -/
inductive Item (platform : Platform) (v : TickerGardenMemeHook.Immutables)
  | swap (s : PoolSwap platform v)
  | curve (t : CurveTrade)
  | other (o : EventObservation)

section Logs

variable {platform : Platform} {v : TickerGardenMemeHook.Immutables}

/-- The event of the pool manager, as far as it is read. -/
def PoolSwap.swapObservation (s : PoolSwap platform v) : EventObservation where
  event :=
    { module := .uniswapV4PoolManager
      eventName := .swap
      args := args [(.id, .bytes32 s.pool.poolId), (.sender, .address s.sender),
        (.amount0, .bigint s.core.amount0), (.amount1, .bigint s.core.amount1),
        (.fee, .bigint (swapFee s.core.protocolFee s.pool.key.fee))]
      log := s.log }
  timestamp := s.timestamp

/-- `V4FeeAccrued`. -/
def PoolSwap.feeObservation (s : PoolSwap platform v) : EventObservation where
  event :=
    { module := .tickerGardenMemeHook
      eventName := .v4FeeAccrued
      args := args [(.marketId, .bytes32 s.fee.marketId), (.poolId, .bytes32 s.fee.poolId),
        (.feeAsset, .address s.fee.feeAsset), (.feeNonce, .bigint s.fee.feeNonce),
        (.feeId, .bytes32 s.fee.feeId), (.base, .bigint s.fee.base),
        (.totalFee, .bigint s.fee.totalFee), (.lpAmount, .bigint s.fee.lpAmount),
        (.nonLpAmount, .bigint s.fee.nonLpAmount)]
      log := s.feeLog }
  timestamp := s.timestamp

/-- The fee event of a swap: a hook that takes nothing emits none. -/
def PoolSwap.feeObservations (s : PoolSwap platform v) : List EventObservation :=
  if s.fee.totalFee = 0 then [] else [s.feeObservation]

/-- The observation of a trade of a curve. -/
def CurveTrade.observations (t : CurveTrade) : List EventObservation :=
  ((decodeCurveEvent t.log t.event).map fun event => ⟨event, t.timestamp⟩).toList

/-- The logs of an item. -/
def Item.logs : Item platform v → List EventObservation
  | .swap s => s.swapObservation :: s.inner ++ s.feeObservations
  | .curve t => t.observations
  | .other o => [o]

/-- The logs of a transaction. -/
def logs (items : List (Item platform v)) : List EventObservation := items.flatMap Item.logs

/-- An observation that is of no trade, fee or conversion of the markets. -/
def Quiet (feeVault : Address) (bindings : List PooledBinding) (o : EventObservation) : Prop :=
  isCurveTrade o.event = false ∧
    (∀ b ∈ bindings, ∀ poolId, b.poolId = some poolId →
      isPoolFee poolId b.marketId o.event = false) ∧
    conversionClassification feeVault o.event = .ok none ∧
    (isSwap o.event = true → ∃ poolId, o.event.args .id = some (.bytes32 poolId) ∧
      ∀ b ∈ bindings, b.poolId ≠ some poolId)

/-- **An item of a transaction, for the bindings of the service**: its market is among them,
and what else is logged is quiet. -/
def Item.Emitted (feeVault : Address) (bindings : List PooledBinding) : Item platform v → Prop
  | .swap s => s.pool.binding ∈ bindings ∧ ∀ o ∈ s.inner, Quiet feeVault bindings o
  | .curve t => t.binding ∈ bindings
  | .other o => Quiet feeVault bindings o

/-- The items that are accepted: a swap that moves both currencies, and a trade of a curve
whose price is one of words. -/
def Item.Accepted : Item platform v → Prop
  | .swap s => s.core.amount0 ≠ 0 ∧ s.core.amount1 ≠ 0
  | .curve t => Priced |(t.after.reserves.trackedTokens : ℤ) - t.before.reserves.trackedTokens|
      |(t.after.netQuote : ℤ) - t.before.netQuote| t.binding.quoteDecimals
  | .other _ => True

end Logs

/-- **The bindings of the service**: no two markets have one curve or one pool. -/
structure DistinctBindings (bindings : List PooledBinding) : Prop where
  curves : ((bindings.filter fun b => b.curve ≠ 0).map fun b => b.curve).Nodup
  pools : (bindings.filterMap fun b => b.poolId).Nodup

/-- The logs of one transaction, in its order. -/
def OneTransaction (os : List EventObservation) : Prop :=
  os.Pairwise fun a b => a.event.log.blockNumber = b.event.log.blockNumber ∧
    a.event.log.blockHash = b.event.log.blockHash ∧
    a.event.log.transactionHash = b.event.log.transactionHash ∧
    a.event.log.transactionIndex = b.event.log.transactionIndex ∧
    a.event.log.logIndex < b.event.log.logIndex

/-! ### A swap is accepted when it moves both currencies -/

section Swaps

variable {platform : Platform} {v : TickerGardenMemeHook.Immutables} {s : PoolSwap platform v}

/-- The fee that is reported is one of the pool's. -/
theorem swapFee_mem {protocolFee lpFee : ℕ} (hle : protocolFee ≤ 1000)
    (hallowed : StaticLPFee.isAllowed lpFee = true) :
    lpFee ∈ [0, 1000, 2000, 3000] ∧ lpFee ≤ swapFee protocolFee lpFee ∧
      swapFee protocolFee lpFee ≤ lpFee + 1000 - lpFee * 1000 / 1000000 := by
  simp only [StaticLPFee.isAllowed, Bool.or_eq_true, beq_iff_eq] at hallowed
  obtain ((rfl | rfl) | rfl) | rfl := hallowed
  all_goals
    refine ⟨by decide, ?_, ?_⟩ <;> unfold swapFee <;> omega

/-- The two currencies of a pool are its assets, in one order or the other. -/
theorem Pool.assets (p : Pool) :
    p.binding.memeAsset = p.key.currency0 ∧ p.binding.quoteAsset = p.key.currency1 ∨
      p.binding.memeAsset = p.key.currency1 ∧ p.binding.quoteAsset = p.key.currency0 := by
  have hcurrencies := p.currencies
  rw [p.binding_memeAsset, p.binding_quoteAsset]
  split at hcurrencies
  · obtain ⟨h0, h1⟩ := Prod.mk.inj hcurrencies
    exact .inr ⟨h1.symm, h0.symm⟩
  · obtain ⟨h0, h1⟩ := Prod.mk.inj hcurrencies
    exact .inl ⟨h0.symm, h1.symm⟩

theorem Pool.currency_lt (p : Pool) : p.key.currency0 < p.key.currency1 := by
  have hcurrencies := p.currencies
  have hne := p.value.config.quoteAsset_ne_memeToken
  split at hcurrencies
  · rename_i hlt
    obtain ⟨h0, h1⟩ := Prod.mk.inj hcurrencies
    rwa [h0, h1]
  · rename_i hlt
    obtain ⟨h0, h1⟩ := Prod.mk.inj hcurrencies
    rw [h0, h1, BitVec.lt_def]
    rw [BitVec.lt_def] at hlt
    have hneNat : p.value.config.quoteAsset.toNat ≠ p.value.config.memeToken.toNat :=
      fun heq => hne (BitVec.eq_of_toNat_eq heq)
    omega

theorem poolOf_binding (p : Pool) :
    poolOf p.binding = .ok (p.poolId, p.key.currency0, p.key.currency1) := by
  rw [poolOf, p.binding_poolId, p.binding_currency0, p.binding_currency1]
  exact if_pos p.currency_lt

theorem int128_of_mem {n : ℤ} (label : String) (h : -(2 ^ 127) ≤ n ∧ n ≤ 2 ^ 127 - 1) :
    int128 (some (.bigint n)) label = .ok n :=
  if_neg (by omega)

/-- A swap that moves both currencies moves them in opposite directions. -/
theorem CoreSwap.opposite (c : CoreSwap) (h0 : c.amount0 ≠ 0) (h1 : c.amount1 ≠ 0) :
    ¬((c.amount0 < 0 ↔ c.amount1 < 0) ∨ c.amount0 = 0 ∨ c.amount1 = 0) := by
  have hpaid := c.paid
  split at hpaid <;> omega

/-- The changes of the two assets. -/
theorem memeAndQuote_eq_ok (p : Pool) (c : CoreSwap) (h0 : c.amount0 ≠ 0) (h1 : c.amount1 ≠ 0) :
    ∃ memeDelta quoteDelta,
      memeAndQuote p.binding p.key.currency0 p.key.currency1 c.amount0 c.amount1
        = .ok (memeDelta, quoteDelta) ∧
      (p.binding.memeAsset = p.key.currency0 ∧ memeDelta = c.amount0 ∧ quoteDelta = c.amount1 ∨
        p.binding.memeAsset = p.key.currency1 ∧ memeDelta = c.amount1 ∧ quoteDelta = c.amount0) := by
  have hopposite := c.opposite h0 h1
  have hne : p.key.currency1 ≠ p.key.currency0 := fun heq =>
    absurd p.currency_lt (by rw [heq]; exact BitVec.lt_irrefl _)
  rcases p.assets with ⟨hmeme, hquote⟩ | ⟨hmeme, hquote⟩
  · refine ⟨c.amount0, c.amount1, ?_, .inl ⟨hmeme, rfl, rfl⟩⟩
    simp only [memeAndQuote, deltaOf, hmeme, hquote, if_true, if_neg hne]
    exact if_neg (by omega)
  · refine ⟨c.amount1, c.amount0, ?_, .inr ⟨hmeme, rfl, rfl⟩⟩
    simp only [memeAndQuote, deltaOf, hmeme, hquote, if_true, if_neg hne]
    exact if_neg (by omega)

theorem uint256_natCast {n : ℕ} (label : String) (h : n < 2 ^ 256) :
    uint256 (some (.bigint n)) label = .ok n := by
  rw [uint256_of_lt label (Int.natCast_nonneg n) (by exact_mod_cast h), Int.toNat_natCast]

/-- **The fee of a swap is accepted with it**, whichever of the two currencies it is in. -/
theorem pairedFee_eq_ok (s : PoolSwap platform v) (hfee : s.fee.totalFee ≠ 0) {memeDelta quoteDelta : ℤ}
    (hdeltas : s.pool.binding.memeAsset = s.pool.key.currency0 ∧ memeDelta = s.core.amount0 ∧
        quoteDelta = s.core.amount1 ∨
      s.pool.binding.memeAsset = s.pool.key.currency1 ∧ memeDelta = s.core.amount1 ∧
        quoteDelta = s.core.amount0) :
    pairedFee s.pool.binding memeDelta.natAbs quoteDelta.natAbs s.feeObservation.event
      = .ok (s.fee.feeAsset, s.fee.totalFee) := by
  obtain ⟨hmarket, hpool, hcanonical, hbase, htaken⟩ := prepareV4Fee_spec s.taken
  obtain ⟨hle, hlp, hnonLp⟩ := htaken hfee
  have hmax : maxInt128 < 2 ^ 256 := by decide
  have h0 := s.core.amount0_mem
  have h1 := s.core.amount1_mem
  have hne : s.pool.key.currency1 ≠ s.pool.key.currency0 := fun heq =>
    absurd s.pool.currency_lt (by rw [heq]; exact BitVec.lt_irrefl _)
  have hmarketId : s.feeObservation.event.args .marketId
      = some (.bytes32 s.pool.binding.marketId) := by
    rw [s.pool.binding_marketId, ← hmarket]
    rfl
  have hpoolId : s.feeObservation.event.args .poolId = s.pool.binding.poolId.map .bytes32 := by
    rw [s.pool.binding_poolId, ← hpool]
    rfl
  have hasset : address (s.feeObservation.event.args .feeAsset) "fee asset" = .ok s.fee.feeAsset :=
    rfl
  have hbaseArg : uint256 (s.feeObservation.event.args .base) "fee base" = .ok s.fee.base :=
    uint256_natCast _ (by omega)
  have htotalArg : uint256 (s.feeObservation.event.args .totalFee) "total fee"
      = .ok s.fee.totalFee := uint256_natCast _ (by omega)
  have hlpArg : uint256 (s.feeObservation.event.args .lpAmount) "LP fee" = .ok s.fee.lpAmount :=
    uint256_natCast _ (by omega)
  have hnonLpArg : uint256 (s.feeObservation.event.args .nonLpAmount) "non-LP fee"
      = .ok s.fee.nonLpAmount := uint256_natCast _ (by omega)
  have hcanonical' : ¬(s.fee.feeAsset ≠ s.pool.binding.memeAsset ∧
      s.fee.feeAsset ≠ s.pool.binding.quoteAsset) := by
    rw [s.pool.binding_memeAsset, s.pool.binding_quoteAsset]
    tauto
  have hamount : ¬(s.fee.totalFee = 0 ∨ s.fee.lpAmount + s.fee.nonLpAmount ≠ s.fee.totalFee ∨
      s.fee.base ≠ if s.fee.feeAsset = s.pool.binding.memeAsset then memeDelta.natAbs
        else quoteDelta.natAbs) := by
    rw [not_or, not_or, not_not, not_not]
    refine ⟨hfee, by omega, ?_⟩
    -- the fee is in the first currency or in the second, and so is the token
    rcases hdeltas with ⟨hmeme, rfl, rfl⟩ | ⟨hmeme, rfl, rfl⟩ <;>
      rcases hbase with ⟨hfeeAsset, hbase⟩ | ⟨hfeeAsset, hbase⟩ <;>
      rw [hmeme, hfeeAsset, hbase]
    · rw [if_neg hne]
    · rw [if_pos rfl]
    · rw [if_pos rfl]
    · rw [if_neg hne.symm]
  have hemitter : ¬(s.feeObservation.event.log.address ≠ s.pool.binding.hook) :=
    not_not.mpr (s.feeLog_address.trans s.pool.binding_hook.symm)
  have hidentity : ¬(s.feeObservation.event.args .marketId
        ≠ some (.bytes32 s.pool.binding.marketId) ∨
      s.feeObservation.event.args .poolId ≠ s.pool.binding.poolId.map .bytes32) :=
    not_or.mpr ⟨not_not.mpr hmarketId, not_not.mpr hpoolId⟩
  rw [pairedFee, throwIf, revertIf_neg hemitter, ok_bind, throwIf, revertIf_neg hidentity, ok_bind,
    hasset, ok_bind, throwIf, revertIf_neg hcanonical', ok_bind, hbaseArg, ok_bind, htotalArg,
    ok_bind, hlpArg, ok_bind, hnonLpArg, ok_bind, throwIf, revertIf_neg hamount, ok_bind]
  rfl

theorem source_isOk (event : DecodedProtocolEvent) (chainId : ℕ) :
    ∃ src, source event chainId = .ok src := by
  simp only [source, safeNumber_transactionIndex, safeNumber_logIndex, ok_bind]
  exact ⟨_, rfl⟩

/-- The price of two changes of a swap is one of words. -/
theorem priced_of_le {meme quote quoteDecimals : ℕ}
    (hdecimals : 6 ≤ quoteDecimals ∧ quoteDecimals ≤ 18) (hmeme : meme ≤ 2 ^ 127)
    (hquote : quote ≤ 2 ^ 127) : Priced meme quote quoteDecimals where
  decimals_ge := hdecimals.1
  decimals_le := hdecimals.2
  numerator_lt := by
    have hle : quote * 10 ^ 18 ≤ 2 ^ 127 * 10 ^ 18 := Nat.mul_le_mul_right _ hquote
    have hlt : (2 : ℕ) ^ 127 * 10 ^ 18 < 2 ^ 256 := by norm_num
    exact_mod_cast hle.trans_lt hlt
  denominator_lt := by
    have hpow : 10 ^ quoteDecimals ≤ 10 ^ 18 := Nat.pow_le_pow_right (by norm_num) hdecimals.2
    have hle : meme * 10 ^ quoteDecimals ≤ 2 ^ 127 * 10 ^ 18 := Nat.mul_le_mul hmeme hpow
    have hlt : (2 : ℕ) ^ 127 * 10 ^ 18 < 2 ^ 256 := by norm_num
    exact_mod_cast hle.trans_lt hlt

/-- **A swap is accepted exactly when it moves both currencies**, with its fee or without. -/
theorem normalizePool_isOk (s : PoolSwap platform v) {feeEvent : Option DecodedProtocolEvent}
    (hfee : feeEvent = none ∨ s.fee.totalFee ≠ 0 ∧ feeEvent = some s.feeObservation.event) :
    (∃ trade, normalizePool s.swapObservation s.pool.binding feeEvent = .ok trade) ↔
      s.core.amount0 ≠ 0 ∧ s.core.amount1 ≠ 0 := by
  have hamount0 : int128 (s.swapObservation.event.args .amount0) "amount0" = .ok s.core.amount0 :=
    int128_of_mem _ s.core.amount0_mem
  have hamount1 : int128 (s.swapObservation.event.args .amount1) "amount1" = .ok s.core.amount1 :=
    int128_of_mem _ s.core.amount1_mem
  constructor
  · rintro ⟨trade, htrade⟩
    simp only [normalizePool, poolOf_binding, hamount0, hamount1, ok_bind, bind_eq_ok,
      revertIf_eq_ok, not_or] at htrade
    obtain ⟨-, ⟨-, h0, h1⟩, -⟩ := htrade
    exact ⟨h0, h1⟩
  · rintro ⟨h0, h1⟩
    have hfeeRange := swapFee_mem s.core.protocolFee_le s.pool.value.config.lpFee_allowed
    rw [← s.pool.key_fee] at hfeeRange
    obtain ⟨hmem, hge, hle⟩ := hfeeRange
    have hactual : uint256 (s.swapObservation.event.args .fee) "pool fee"
        = .ok (swapFee s.core.protocolFee s.pool.key.fee) := uint256_natCast _ (by
      have : s.pool.key.fee ≤ 3000 := by
        simp only [List.mem_cons, List.not_mem_nil, or_false] at hmem
        omega
      omega)
    have hfeeCheck : ¬(s.pool.binding.lpFeePips.getD 0 ∉ [0, 1000, 2000, 3000] ∨
        swapFee s.core.protocolFee s.pool.key.fee < s.pool.binding.lpFeePips.getD 0 ∨
        swapFee s.core.protocolFee s.pool.key.fee > s.pool.binding.lpFeePips.getD 0 + 1000
          - s.pool.binding.lpFeePips.getD 0 * 1000 / 1000000) := by
      rw [s.pool.binding_lpFeePips, Option.getD_some]
      rw [not_or, not_or, not_not]
      exact ⟨hmem, not_lt.mpr hge, not_lt.mpr hle⟩
    obtain ⟨memeDelta, quoteDelta, hdeltas, hwhich⟩ := memeAndQuote_eq_ok s.pool s.core h0 h1
    have hr0 := s.core.amount0_mem
    have hr1 := s.core.amount1_mem
    obtain ⟨p, hprice⟩ : ∃ p, price (memeDelta.natAbs : ℤ) (quoteDelta.natAbs : ℤ)
        s.pool.binding.quoteDecimals = .ok p := by
      have hmeme : 0 < memeDelta.natAbs ∧ memeDelta.natAbs ≤ 2 ^ 127 := by
        rcases hwhich with ⟨-, rfl, rfl⟩ | ⟨-, rfl, rfl⟩ <;> omega
      have hquote : 0 < quoteDelta.natAbs ∧ quoteDelta.natAbs ≤ 2 ^ 127 := by
        rcases hwhich with ⟨-, rfl, rfl⟩ | ⟨-, rfl, rfl⟩ <;> omega
      exact (price_isOk (by exact_mod_cast hmeme.1) (by exact_mod_cast hquote.1)).mpr
        (priced_of_le s.pool.quoteDecimals_mem hmeme.2 hquote.2)
    obtain ⟨fee, hpaired⟩ : ∃ fee, feeOf s.pool.binding memeDelta.natAbs quoteDelta.natAbs feeEvent
        = .ok fee := by
      rcases hfee with rfl | ⟨hne, rfl⟩
      · exact ⟨none, rfl⟩
      · refine ⟨some (s.fee.feeAsset, s.fee.totalFee), ?_⟩
        rw [feeOf, pairedFee_eq_ok s hne hwhich]
        rfl
    obtain ⟨src, hsource⟩ := source_isOk s.swapObservation.event s.pool.binding.chainId
    refine ⟨?trade, ?accepted⟩
    case accepted =>
      unfold normalizePool
      simp only [poolOf_binding, ok_bind]
      rw [hamount0, ok_bind, hamount1, ok_bind, throwIf, revertIf_neg (s.core.opposite h0 h1),
        ok_bind, hactual, ok_bind, throwIf, revertIf_neg hfeeCheck, ok_bind, hdeltas, ok_bind,
        hpaired, ok_bind, hsource, ok_bind, hprice, ok_bind]
      rfl

end Swaps

/-! ### The maps of the bindings -/

section Maps

variable {κ τ : Type} [DecidableEq κ]

theorem foldlM_unique (key : τ → κ) : ∀ (values : List τ) (result : List (κ × τ)),
    (result.map Prod.fst ++ values.map key).Nodup →
      values.foldlM (fun result value => (do
        throwIf (key value ∈ result.map Prod.fst) "duplicate analytics binding"
        return result ++ [(key value, value)] : Except JsError _)) result
        = .ok (result ++ values.map fun value => (key value, value)) := by
  intro values
  induction values with
  | nil => intro result _; simp [List.foldlM, pure, Except.pure]
  | cons value values ih =>
    intro result hnodup
    have hfresh : key value ∉ result.map Prod.fst := by
      intro hmem
      exact (List.nodup_append.mp hnodup).2.2 _ hmem _ List.mem_cons_self rfl
    rw [List.foldlM_cons, throwIf, revertIf_neg hfresh, ok_bind]
    refine (ih (result ++ [(key value, value)]) ?_).trans ?_
    · simpa using hnodup
    · simp

/-- Values whose keys are distinct make a map. -/
theorem uniqueMap_eq_ok {values : List τ} {key : τ → κ} (h : (values.map key).Nodup) :
    uniqueMap values key = .ok (values.map fun value => (key value, value)) :=
  foldlM_unique key values [] h

/-- The entry of a key in a map. -/
theorem lookup_of_mem {entries : List (κ × τ)} {k : κ} {value : τ}
    (h : (entries.map Prod.fst).Nodup) (hmem : (k, value) ∈ entries) :
    entries.lookup k = some value := by
  obtain ⟨before, after, rfl⟩ := List.append_of_mem hmem
  rw [List.lookup_eq_some_iff]
  refine ⟨before, after, rfl, fun entry hentry => ?_⟩
  rw [List.map_append, List.map_cons, List.nodup_append] at h
  rw [bne_iff_ne]
  exact (h.2.2 _ (List.mem_map_of_mem hentry) _ List.mem_cons_self).symm

end Maps

/-- The two maps of `normalizeTransaction`. -/
structure MapsOf (bindings : List PooledBinding) (byCurve : List (Address × PooledBinding))
    (byPool : List (Bytes32 × PooledBinding)) : Prop where
  curve : ∀ b ∈ bindings, b.curve ≠ 0 → byCurve.lookup b.curve = some b
  pool : ∀ b ∈ bindings, ∀ poolId, b.poolId = some poolId → byPool.lookup poolId = some b
  noPool : ∀ poolId, (∀ b ∈ bindings, b.poolId ≠ some poolId) → byPool.lookup poolId = none

/-- **The maps hold the bindings**, of markets that share no curve and no pool. -/
theorem maps_of_distinct {bindings : List PooledBinding} (h : DistinctBindings bindings) :
    ∃ byCurve byPool,
      uniqueMap (bindings.filter fun b => b.curve ≠ 0) (fun b => b.curve) = .ok byCurve ∧
      uniqueMap (bindings.filterMap fun b => b.poolId.map fun poolId => (poolId, b)) Prod.fst
        = .ok byPool ∧
      MapsOf bindings byCurve (byPool.map fun entry => (entry.1, entry.2.2)) := by
  set pools := bindings.filterMap fun b => b.poolId.map fun poolId => (poolId, b) with hpools
  have hkeys : (pools.map Prod.fst).Nodup := by
    rw [hpools, List.map_filterMap]
    simpa [Option.map_map, Function.comp_def] using h.pools
  have hentries : (pools.map fun value => (value.1, value)).map (fun entry => (entry.1, entry.2.2))
      = pools := by
    rw [List.map_map]
    exact List.map_id' _
  refine ⟨_, _, uniqueMap_eq_ok h.curves, uniqueMap_eq_ok hkeys, ?_⟩
  rw [hentries]
  constructor
  case curve =>
    intro b hb hcurve
    refine lookup_of_mem ?_ (List.mem_map.mpr ⟨b, List.mem_filter.mpr ⟨hb, by simpa using hcurve⟩,
      rfl⟩)
    rw [List.map_map]
    exact h.curves
  case pool =>
    intro b hb poolId hpool
    exact lookup_of_mem hkeys (List.mem_filterMap.mpr ⟨b, hb, by rw [hpool]; rfl⟩)
  case noPool =>
    intro poolId hnone
    rw [List.lookup_eq_none_iff]
    rintro ⟨k, b⟩ hmem
    obtain ⟨b', hb', heq⟩ := List.mem_filterMap.mp hmem
    obtain ⟨poolId', hpool', heq⟩ := Option.map_eq_some_iff.mp heq
    obtain ⟨rfl, rfl⟩ := Prod.mk.inj heq
    rw [bne_iff_ne]
    rintro rfl
    exact hnone _ hb' hpool'

/-! ### The trade of a curve -/

/-- A trade of a curve is one log, which is accepted when its price is one of words. -/
theorem CurveTrade.observations_eq (t : CurveTrade) :
    ∃ event, t.observations = [⟨event, t.timestamp⟩] ∧ event.module = .tickerGardenCurve ∧
      isCurveTrade event = true ∧ event.log = t.log ∧
      ((∃ trade, normalizeCurve ⟨event, t.timestamp⟩ t.binding.toMarketBinding = .ok trade) ↔
        Priced |(t.after.reserves.trackedTokens : ℤ) - t.before.reserves.trackedTokens|
          |(t.after.netQuote : ℤ) - t.before.netQuote| t.binding.quoteDecimals) := by
  obtain ⟨event, hevent, hpriced, -⟩ :=
    decodes_of_trade t.trade t.log t.timestamp t.binding.toMarketBinding
  have hparts : event.module = .tickerGardenCurve ∧ isCurveTrade event = true ∧
      event.log = t.log := by
    rcases t.trade.event with ⟨-, _, _, _, _, _, _, he, -⟩ | ⟨-, _, _, _, _, _, _, he, -⟩
    all_goals
      rw [he, decodeCurveEvent, Option.some.injEq] at hevent
      subst hevent
      exact ⟨rfl, rfl, rfl⟩
  obtain ⟨hmodule, htrade, hlog⟩ := hparts
  refine ⟨event, ?_, hmodule, htrade, hlog, hpriced⟩
  rw [CurveTrade.observations, hevent]
  rfl

/-! ### One item after the other -/

section Items

variable {platform : Platform} {v : TickerGardenMemeHook.Immutables} {feeVault : Address}
  {bindings : List PooledBinding} {byCurve : List (Address × PooledBinding)}
  {byPool : List (Bytes32 × PooledBinding)}

theorem feesAfter_of_swap {poolId marketId : Bytes32} {o : EventObservation}
    (rest : List EventObservation) (h : isSwap o.event = true) :
    feesAfter poolId marketId (o :: rest) = [] := by
  simp [feesAfter, h]

theorem feesAfter_of_other {poolId marketId : Bytes32} {o : EventObservation}
    (rest : List EventObservation) (hswap : isSwap o.event = false)
    (hfee : isPoolFee poolId marketId o.event = false) :
    feesAfter poolId marketId (o :: rest) = feesAfter poolId marketId rest := by
  simp [feesAfter, hswap, hfee]

/-- What is quiet hides the fees after it, or does not matter. -/
theorem feesAfter_of_quiet {b : PooledBinding} {poolId : Bytes32} (hb : b ∈ bindings)
    (hpool : b.poolId = some poolId) (rest : List EventObservation) :
    ∀ inner : List EventObservation, (∀ o ∈ inner, Quiet feeVault bindings o) →
      feesAfter poolId b.marketId (inner ++ rest) = [] ∨
        feesAfter poolId b.marketId (inner ++ rest) = feesAfter poolId b.marketId rest := by
  intro inner
  induction inner with
  | nil => exact fun _ => .inr rfl
  | cons o inner ih =>
    intro h
    obtain ⟨ho, hinner⟩ := List.forall_mem_cons.mp h
    cases hswap : isSwap o.event with
    | true => exact .inl (feesAfter_of_swap _ hswap)
    | false =>
      rw [List.cons_append, feesAfter_of_other _ hswap (ho.2.1 b hb poolId hpool)]
      exact ih hinner

/-- No fee comes before the swap it is of. -/
theorem feesAfter_logs {b : PooledBinding} {poolId : Bytes32} (hb : b ∈ bindings)
    (hpool : b.poolId = some poolId) :
    ∀ items : List (Item platform v), (∀ i ∈ items, i.Emitted feeVault bindings) →
      feesAfter poolId b.marketId (logs items) = [] := by
  intro items
  induction items with
  | nil => intro _; rfl
  | cons i items ih =>
    intro h
    obtain ⟨hi, hitems⟩ := List.forall_mem_cons.mp h
    have hrest := ih hitems
    rw [logs, List.flatMap_cons]
    change feesAfter poolId b.marketId (i.logs ++ logs items) = []
    cases i with
    | swap s => exact feesAfter_of_swap _ rfl
    | curve t =>
      obtain ⟨event, heq, hmodule, -⟩ := t.observations_eq
      have hswap : isSwap event = false := by simp [isSwap, hmodule]
      have hfee : isPoolFee poolId b.marketId event = false := by simp [isPoolFee, hmodule]
      rw [Item.logs, heq]
      exact (feesAfter_of_other (logs items) hswap hfee).trans hrest
    | other o =>
      rcases feesAfter_of_quiet hb hpool (logs items) [o]
        (List.forall_mem_singleton.mpr hi) with heq | heq
      · exact heq
      · exact heq.trans hrest

/-- The trades of some logs, first the first. -/
theorem tradesOf_cons_isOk {o : EventObservation} {rest : List EventObservation} :
    (∃ trades, tradesOf byCurve byPool (o :: rest) = .ok trades) ↔
      (∃ trade, tradeOf byCurve byPool o rest = .ok trade) ∧
        ∃ trades, tradesOf byCurve byPool rest = .ok trades := by
  simp only [tradesOf, bind_eq_ok, pure_eq_ok, Except.ok.injEq]
  constructor
  · rintro ⟨_, trade, htrade, trades, htrades, -⟩
    exact ⟨⟨trade, htrade⟩, trades, htrades⟩
  · rintro ⟨⟨trade, htrade⟩, trades, htrades⟩
    exact ⟨_, trade, htrade, trades, htrades, rfl⟩

theorem tradeOf_of_swap {o : EventObservation} {poolId : Bytes32} {b : PooledBinding}
    (rest : List EventObservation) (htrade : isCurveTrade o.event = false)
    (hswap : isSwap o.event = true) (hid : o.event.args .id = some (.bytes32 poolId))
    (hb : byPool.lookup poolId = some b) (hfees : (feesAfter poolId b.marketId rest).length ≤ 1) :
    tradeOf byCurve byPool o rest = some <$> normalizePool o b
      ((feesAfter poolId b.marketId rest).head?.map EventObservation.event) := by
  have hfew : ¬(feesAfter poolId b.marketId rest).length > 1 := not_lt.mpr hfees
  rw [tradeOf, if_neg (by rw [htrade]; exact Bool.false_ne_true), if_pos hswap, hid]
  simp only [hex32, ok_bind, hb]
  rw [throwIf, revertIf_neg hfew, ok_bind]

theorem tradeOf_of_curve {o : EventObservation} {b : PooledBinding}
    (rest : List EventObservation) (htrade : isCurveTrade o.event = true)
    (hb : byCurve.lookup o.event.log.address = some b) :
    tradeOf byCurve byPool o rest = some <$> normalizeCurve o b.toMarketBinding := by
  rw [tradeOf, if_pos htrade]
  simp only [hb]

/-- A quiet log tells no trade. -/
theorem tradeOf_of_quiet (hmaps : MapsOf bindings byCurve byPool) {o : EventObservation}
    (rest : List EventObservation) (h : Quiet feeVault bindings o) :
    tradeOf byCurve byPool o rest = .ok none := by
  obtain ⟨htrade, -, -, hswap⟩ := h
  rw [tradeOf, if_neg (by rw [htrade]; exact Bool.false_ne_true)]
  split
  · rename_i hisSwap
    obtain ⟨poolId, hid, hnone⟩ := hswap hisSwap
    rw [hid]
    simp only [hex32, ok_bind, hmaps.noPool poolId hnone]
    rfl
  · rfl

/-- Logs that tell no trade add none. -/
theorem tradesOf_append (rest : List EventObservation) :
    ∀ inner : List EventObservation,
      (∀ o ∈ inner, ∀ rest, tradeOf byCurve byPool o rest = .ok none) →
        tradesOf byCurve byPool (inner ++ rest) = tradesOf byCurve byPool rest := by
  intro inner
  induction inner with
  | nil => intro _; rfl
  | cons o inner ih =>
    intro h
    obtain ⟨ho, hinner⟩ := List.forall_mem_cons.mp h
    rw [List.cons_append, tradesOf, ho, ok_bind, ih hinner]
    cases tradesOf byCurve byPool rest <;> rfl

theorem map_isOk {α β : Type} (f : α → β) (x : Except JsError α) :
    (∃ b, f <$> x = .ok b) ↔ ∃ a, x = .ok a := by
  cases x with
  | error e =>
    constructor
    · rintro ⟨_, h⟩
      cases h
    · rintro ⟨_, h⟩
      cases h
  | ok a => exact ⟨fun _ => ⟨a, rfl⟩, fun _ => ⟨f a, rfl⟩⟩

theorem PoolSwap.feeObservations_length (s : PoolSwap platform v) :
    s.feeObservations.length ≤ 1 := by
  rw [PoolSwap.feeObservations]
  split <;> simp

/-- The fee of a swap is found when nothing else is in the way. -/
theorem PoolSwap.feesAfter_own (s : PoolSwap platform v) {rest : List EventObservation}
    (h : feesAfter s.pool.poolId s.pool.binding.marketId rest = []) :
    feesAfter s.pool.poolId s.pool.binding.marketId (s.feeObservations ++ rest)
      = s.feeObservations := by
  rw [PoolSwap.feeObservations]
  split
  · exact h
  · obtain ⟨hmarket, hpool, -⟩ := prepareV4Fee_spec s.taken
    have hswap : isSwap s.feeObservation.event = false := rfl
    have hfee : isPoolFee s.pool.poolId s.pool.binding.marketId s.feeObservation.event = true := by
      rw [s.pool.binding_marketId, ← hmarket, ← hpool]
      exact decide_eq_true ⟨rfl, rfl, rfl, rfl⟩
    rw [feesAfter] at h
    simp [feesAfter, hswap, hfee, h]

theorem PoolSwap.tradeOf_feeObservations (s : PoolSwap platform v) :
    ∀ o ∈ s.feeObservations, ∀ rest, tradeOf byCurve byPool o rest = .ok none := by
  intro o ho rest
  rw [PoolSwap.feeObservations] at ho
  split at ho
  · cases ho
  · rw [List.mem_singleton.mp ho]
    rfl

/-- **One item of a transaction** is accepted, or is not, whatever follows. -/
theorem tradesOf_item (hmaps : MapsOf bindings byCurve byPool) {i : Item platform v}
    {items : List (Item platform v)} (hi : i.Emitted feeVault bindings)
    (hitems : ∀ i ∈ items, i.Emitted feeVault bindings) :
    (∃ trades, tradesOf byCurve byPool (i.logs ++ logs items) = .ok trades) ↔
      i.Accepted ∧ ∃ trades, tradesOf byCurve byPool (logs items) = .ok trades := by
  cases i with
  | other o =>
    have hnone : ∀ o' ∈ [o], ∀ rest, tradeOf byCurve byPool o' rest = .ok none :=
      List.forall_mem_singleton.mpr fun rest => tradeOf_of_quiet hmaps rest hi
    rw [Item.logs, tradesOf_append _ [o] hnone]
    exact ⟨fun h => ⟨trivial, h⟩, And.right⟩
  | curve t =>
    obtain ⟨event, heq, -, htrade, hlog, hpriced⟩ := t.observations_eq
    have hlookup : byCurve.lookup event.log.address = some t.binding := by
      rw [hlog, t.log_address]
      exact hmaps.curve t.binding hi t.curve_ne
    rw [Item.logs, heq, List.singleton_append, tradesOf_cons_isOk,
      tradeOf_of_curve (o := ⟨event, t.timestamp⟩) _ htrade hlookup, map_isOk, hpriced]
    rfl
  | swap s =>
    obtain ⟨hb, hinner⟩ := hi
    have hpool := s.pool.binding_poolId
    set rest := s.inner ++ (s.feeObservations ++ logs items) with hrest
    have hlogs : (Item.swap s).logs ++ logs items = s.swapObservation :: rest := by
      rw [Item.logs, List.cons_append, List.cons_append, List.append_assoc]
    -- the logs after the swap tell at most its own fee
    have hown := s.feesAfter_own (feesAfter_logs hb hpool items hitems)
    have hfees : feesAfter s.pool.poolId s.pool.binding.marketId rest = [] ∨
        feesAfter s.pool.poolId s.pool.binding.marketId rest = s.feeObservations := by
      have := feesAfter_of_quiet hb hpool (s.feeObservations ++ logs items) s.inner hinner
      rwa [hown] at this
    have hlength : (feesAfter s.pool.poolId s.pool.binding.marketId rest).length ≤ 1 := by
      rcases hfees with heq | heq <;> rw [heq]
      · exact Nat.zero_le 1
      · exact s.feeObservations_length
    have hfee : (feesAfter s.pool.poolId s.pool.binding.marketId rest).head?.map
          EventObservation.event = none ∨ s.fee.totalFee ≠ 0 ∧
        (feesAfter s.pool.poolId s.pool.binding.marketId rest).head?.map EventObservation.event
          = some s.feeObservation.event := by
      rcases hfees with heq | heq
      · exact .inl (by rw [heq]; rfl)
      · rw [heq, PoolSwap.feeObservations]
        split
        · exact .inl rfl
        · exact .inr ⟨‹_›, rfl⟩
    have hafter : tradesOf byCurve byPool rest = tradesOf byCurve byPool (logs items) := by
      rw [hrest, tradesOf_append _ s.inner fun o ho rest => tradeOf_of_quiet hmaps rest (hinner o ho),
        tradesOf_append _ s.feeObservations s.tradeOf_feeObservations]
    rw [hlogs, tradesOf_cons_isOk, tradeOf_of_swap rest rfl rfl rfl
      (hmaps.pool s.pool.binding hb s.pool.poolId hpool) hlength, map_isOk,
      normalizePool_isOk s hfee, hafter]
    rfl

/-- **The trades of a transaction** are accepted when each item is. -/
theorem tradesOf_logs (hmaps : MapsOf bindings byCurve byPool) :
    ∀ items : List (Item platform v), (∀ i ∈ items, i.Emitted feeVault bindings) →
      ((∃ trades, tradesOf byCurve byPool (logs items) = .ok trades) ↔
        ∀ i ∈ items, i.Accepted) := by
  intro items
  induction items with
  | nil => exact fun _ => ⟨fun _ _ h => absurd h List.not_mem_nil, fun _ => ⟨[], rfl⟩⟩
  | cons i items ih =>
    intro h
    obtain ⟨hi, hitems⟩ := List.forall_mem_cons.mp h
    rw [logs, List.flatMap_cons]
    change (∃ trades, tradesOf byCurve byPool (i.logs ++ logs items) = .ok trades) ↔ _
    rw [tradesOf_item hmaps hi hitems, ih hitems, List.forall_mem_cons]

/-- Nothing in the transaction is a conversion. -/
theorem conversionClassification_logs {items : List (Item platform v)}
    (h : ∀ i ∈ items, i.Emitted feeVault bindings) :
    ∀ o ∈ logs items, conversionClassification feeVault o.event = .ok none := by
  have hother : ∀ event : DecodedProtocolEvent, event.module ≠ .protocolFeeVault →
      conversionClassification feeVault event = .ok none := fun event hmodule =>
    if_pos (.inl hmodule)
  intro o ho
  obtain ⟨i, hi, ho⟩ := List.mem_flatMap.mp ho
  have hemitted := h i hi
  cases i with
  | other o' =>
    rw [List.mem_singleton.mp ho]
    exact hemitted.2.2.1
  | curve t =>
    obtain ⟨event, heq, hmodule, -⟩ := t.observations_eq
    rw [Item.logs, heq] at ho
    rw [List.mem_singleton.mp ho]
    exact hother event (by rw [hmodule]; decide)
  | swap s =>
    rw [Item.logs, List.mem_append, List.mem_cons, PoolSwap.feeObservations] at ho
    rcases ho with (rfl | hinner) | hfee
    · exact hother _ (by simp [PoolSwap.swapObservation])
    · exact (hemitted.2 o hinner).2.2.1
    · split at hfee
      · cases hfee
      · rw [List.mem_singleton.mp hfee]
        exact hother _ (by simp [PoolSwap.feeObservation])

end Items

/-! ### The order of the logs -/

instance : Std.Total Precedes := ⟨fun a b => by unfold Precedes; omega⟩

instance : IsTrans EventObservation Precedes := ⟨fun a b c => by unfold Precedes; omega⟩

/-- The logs of a transaction are sorted into its order, however they come. -/
theorem insertionSort_eq {os observations : List EventObservation} (hone : OneTransaction os)
    (hperm : observations.Perm os) : observations.insertionSort Precedes = os := by
  have hdistinct : os.Pairwise fun a b => a.event.log.logIndex ≠ b.event.log.logIndex :=
    hone.imp fun h => h.2.2.2.2.ne
  have : Std.Symm fun a b : EventObservation => a.event.log.logIndex ≠ b.event.log.logIndex :=
    ⟨fun _ _ => Ne.symm⟩
  refine List.Perm.eq_of_pairwise ?_ (List.pairwise_insertionSort _ _)
    (hone.imp fun h => .inr ⟨h.1, .inr ⟨h.2.2.2.1, h.2.2.2.2.le⟩⟩)
    ((List.perm_insertionSort _ _).trans hperm)
  intro a b ha hb hab hba
  by_contra hne
  refine hdistinct.forall ?_ hb hne ?_
  · exact ((List.perm_insertionSort _ _).trans hperm).mem_iff.mp ha
  · simp only [Precedes] at hab hba
    omega

theorem assertSingleOrderedTransaction_eq_ok : ∀ {os : List EventObservation},
    OneTransaction os → assertSingleOrderedTransaction os = .ok ()
  | [], _ => rfl
  | [_], _ => rfl
  | left :: right :: rest, h => by
    obtain ⟨hleft, hrest⟩ := List.pairwise_cons.mp h
    obtain ⟨-, hblock, htransaction, -, hlt⟩ := hleft right List.mem_cons_self
    have hordered : ¬(left.event.log.blockHash ≠ right.event.log.blockHash ∨
        left.event.log.transactionHash ≠ right.event.log.transactionHash ∨
        left.event.log.logIndex ≥ right.event.log.logIndex) := by
      rw [not_or, not_or, not_not, not_not]
      exact ⟨hblock, htransaction, not_le.mpr hlt⟩
    rw [assertSingleOrderedTransaction, throwIf, revertIf_neg hordered, ok_bind]
    exact assertSingleOrderedTransaction_eq_ok hrest

/-- Without conversions the trades are left as they are. -/
theorem linkConversion_foldlM {feeVault : Address} {bindings : List PooledBinding}
    (trades : List TradeActivity) :
    ∀ os : List EventObservation, (∀ o ∈ os, conversionClassification feeVault o.event = .ok none) →
      os.foldlM (linkConversion feeVault bindings) trades = .ok trades := by
  intro os
  induction os with
  | nil => intro _; rfl
  | cons o os ih =>
    intro h
    obtain ⟨ho, hos⟩ := List.forall_mem_cons.mp h
    have hlink : linkConversion feeVault bindings trades o = .ok trades := by
      simp only [linkConversion, ho, ok_bind]
      rfl
    rw [List.foldlM_cons, hlink, ok_bind]
    exact ih hos

/-! ### Which transactions are accepted -/

/-- **A transaction is accepted exactly when it is within the bound of the service, its swaps
move both currencies and the trades of curves in it are priced.** -/
theorem normalizes_iff {platform : Platform} {v : TickerGardenMemeHook.Immutables}
    {feeVault : Address} {bindings : List PooledBinding} {items : List (Item platform v)}
    {observations : List EventObservation} (hdistinct : DistinctBindings bindings)
    (hemitted : ∀ i ∈ items, i.Emitted feeVault bindings) (hone : OneTransaction (logs items))
    (hperm : observations.Perm (logs items)) :
    (∃ trades, normalizeTransaction feeVault observations bindings = .ok trades) ↔
      observations.length ≤ 10000 ∧ bindings.length ≤ 10000 ∧ ∀ i ∈ items, i.Accepted := by
  obtain ⟨byCurve, byPool, hcurves, hpools, hmaps⟩ := maps_of_distinct hdistinct
  have hlink : ∀ trades, (logs items).foldlM (linkConversion feeVault bindings) trades = .ok trades :=
    fun trades => linkConversion_foldlM trades _ (conversionClassification_logs hemitted)
  rw [← tradesOf_logs hmaps items hemitted]
  simp only [normalizeTransaction, insertionSort_eq hone hperm,
    assertSingleOrderedTransaction_eq_ok hone, hcurves, hpools, hlink, ok_bind, bind_eq_ok,
    revertIf_eq_ok, not_or, not_lt]
  constructor
  · rintro ⟨_, -, ⟨hos, hbs⟩, trades, htrades, -⟩
    exact ⟨hos, hbs, trades, htrades⟩
  · rintro ⟨hos, hbs, trades, htrades⟩
    exact ⟨_, (), ⟨hos, hbs⟩, trades, htrades, rfl⟩

/-! ### Two swaps of a small pool -/

namespace Sample

/-- The binding of the small market, with its pool. -/
def binding : PooledBinding :=
  { CurveDecoding.Sample.binding with
    hook := 0x2044
    poolId := some 9
    lpFeePips := some 0
    currency0 := some 0
    currency1 := some 5 }

/-- The pool of the token `5` against the native currency. -/
def pool : Pool where
  binding := binding
  value := ⟨Curve.Sample.config, ⟨0, 1, 1⟩⟩
  key := ⟨0, 5, 0, 60, 0x2044⟩
  poolId := 9
  hookBinding := ⟨1, 0, 1, 0, 1⟩
  currencies := rfl
  key_fee := rfl
  binding_marketId := rfl
  binding_memeAsset := rfl
  binding_quoteAsset := rfl
  binding_hook := rfl
  binding_poolId := rfl
  binding_lpFeePips := rfl
  binding_currency0 := rfl
  binding_currency1 := rfl
  quoteDecimals_mem := by decide

/-- Something is paid, and nothing received. -/
def dust : CoreSwap where
  params := ⟨true, -1⟩
  amount0 := -1
  amount1 := 0
  protocolFee := 0
  amount0_mem := by norm_num
  amount1_mem := by norm_num
  paid := by simp
  protocolFee_le := by norm_num

/-- A swap whose fee is one. -/
def small : CoreSwap where
  params := ⟨true, -110⟩
  amount0 := -110
  amount1 := 100
  protocolFee := 0
  amount0_mem := by norm_num
  amount1_mem := by norm_num
  paid := by simp
  protocolFee_le := by norm_num

/-- What the hook takes of a swap of the pool. -/
def fee (core : CoreSwap) : Except Revert (CalculatedV4Fee × PoolBinding) :=
  prepareV4Fee DocumentedV4.platform ⟨2, 3⟩ pool.poolId pool.hookBinding pool.value pool.key
    core.params core.amount0 core.amount1

/-- A swap of the pool, with its hook. -/
def swap (core : CoreSwap) (h : (fee core).isOk = true) :
    PoolSwap DocumentedV4.platform ⟨2, 3⟩ where
  pool := pool
  core := core
  sender := 8
  fee := (value (fee core) h).1
  hookBinding := (value (fee core) h).2
  taken := eq_ok_value h
  inner := []
  log := ⟨3, 1, 1, 1, 0, 0, zero_le_maxSafeInteger, zero_le_maxSafeInteger⟩
  feeLog := ⟨0x2044, 1, 1, 1, 0, 1, zero_le_maxSafeInteger, one_le_maxSafeInteger⟩
  feeLog_address := rfl
  timestamp := 0

theorem dust_isOk : (fee dust).isOk = true := by decide +kernel

theorem small_isOk : (fee small).isOk = true := by decide +kernel

theorem small_taken : (value (fee small) small_isOk).1.totalFee = 1 := by decide +kernel

end Sample

/-- **A swap that receives nothing is refused.** -/
theorem dust_swap_refused :
    ¬∀ (platform : Platform) (v : TickerGardenMemeHook.Immutables) (feeVault : Address)
      (bindings : List PooledBinding) (s : PoolSwap platform v), DistinctBindings bindings →
      (Item.swap s).Emitted feeVault bindings → OneTransaction (logs [Item.swap s]) →
        ∃ trades, normalizeTransaction feeVault (logs [Item.swap s]) bindings = .ok trades := by
  intro h
  obtain ⟨trades, htrades⟩ := h DocumentedV4.platform ⟨2, 3⟩ 2 [Sample.binding]
    (Sample.swap Sample.dust Sample.dust_isOk) ⟨by decide, by decide⟩
    ⟨List.mem_singleton_self _, fun _ h => absurd h List.not_mem_nil⟩ (List.pairwise_singleton _ _)
  have hrefused : (normalizeTransaction 2
      (logs [Item.swap (Sample.swap Sample.dust Sample.dust_isOk)]) [Sample.binding]).isOk
        = false := by decide +kernel
  rw [htrades] at hrefused
  cases hrefused

/-- A swap with its fee, and the swap that receives nothing. -/
theorem normalizes_sample :
    (∃ trades, normalizeTransaction 2
      (logs [Item.swap (Sample.swap Sample.small Sample.small_isOk)]) [Sample.binding]
        = .ok trades) ∧
    ¬∃ trades, normalizeTransaction 2
      (logs [Item.swap (Sample.swap Sample.dust Sample.dust_isOk)]) [Sample.binding]
        = .ok trades := by
  have hdistinct : DistinctBindings [Sample.binding] := ⟨by decide, by decide⟩
  have hemitted : ∀ core h, ∀ i ∈ [Item.swap (Sample.swap core h)],
      i.Emitted 2 [Sample.binding] := fun core h => List.forall_mem_singleton.mpr
    ⟨List.mem_singleton_self _, fun _ h => absurd h List.not_mem_nil⟩
  constructor
  · refine (normalizes_iff hdistinct (hemitted Sample.small Sample.small_isOk) ?_
      (List.Perm.refl _)).mpr ⟨by decide +kernel, by decide, List.forall_mem_singleton.mpr ?_⟩
    · have hlogs : logs [Item.swap (Sample.swap Sample.small Sample.small_isOk)]
          = [(Sample.swap Sample.small Sample.small_isOk).swapObservation,
            (Sample.swap Sample.small Sample.small_isOk).feeObservation] := by
        have hne : (value (Sample.fee Sample.small) Sample.small_isOk).1.totalFee ≠ 0 := by
          rw [Sample.small_taken]
          decide
        simp [logs, Item.logs, PoolSwap.feeObservations, Sample.swap, hne]
      rw [hlogs]
      exact List.pairwise_pair.mpr ⟨rfl, rfl, rfl, rfl, Nat.zero_lt_one⟩
    · exact ⟨by decide, by decide⟩
  · rw [normalizes_iff hdistinct (hemitted Sample.dust Sample.dust_isOk)
      (List.pairwise_singleton _ _) (List.Perm.refl _)]
    rintro ⟨-, -, haccepted⟩
    exact (haccepted _ (List.mem_singleton_self _)).2 rfl

end Analytics

end Backend

end TickerGarden
