import TickerGarden.Backend.Decoded
import TickerGarden.Fees.FeeVault

/-!
# Fee credits, from events

`feeCredits` of the analytics projector: what an event of the fee vault credits, by the
role of the recipient. Three events credit something – a sweep of a curve, the credit of a
swap fee, and what the holders accrue – and an event of any other module nothing.

The vault emits the events of `TickerGarden.ProtocolFeeVault.Event`; the projector reads them
decoded, with the place of their log. `TickerGarden.Backend.feeCredits_decoded` is what it
makes of each: it never throws on an event of the vault, and the amount that it credits to a
role is the one `TickerGarden.ProtocolFeeVault.Event.credit` reads off the event.
-/

namespace TickerGarden

open Checked

namespace ProtocolFeeVault

open Backend (Args ArgName ArgValue DecodedProtocolEvent EventName RpcLog)

namespace Event

/-- The name of an event in the interface file, and its arguments. The error selectors, which
nothing reads, are left out. -/
def decodedArgs : Event → EventName × Args
  | holderFeesAccrued marketId epochId feeAsset amount =>
    (.holderFeesAccrued, Backend.args [(.marketId, .bytes32 marketId),
      (.epochId, .bigint epochId.toNat), (.feeAsset, .address feeAsset), (.amount, .bigint amount)])
  | feeBucketsCredited marketId creatorEpoch feeAsset feeId creatorAmount stakerAmount
      platformAmount activeStock =>
    (.feeBucketsCredited, Backend.args [(.marketId, .bytes32 marketId),
      (.creatorEpoch, .bigint creatorEpoch.toNat), (.feeAsset, .address feeAsset),
      (.feeId, .bytes32 feeId), (.creatorAmount, .bigint creatorAmount),
      (.stakerAmount, .bigint stakerAmount), (.platformAmount, .bigint platformAmount),
      (.activeStock, .bigint activeStock)])
  | curveFeesSwept marketId creatorEpoch quoteAsset sweepNonce feeId amount creatorAmount
      platformAmount =>
    (.curveFeesSwept, Backend.args [(.marketId, .bytes32 marketId),
      (.creatorEpoch, .bigint creatorEpoch.toNat), (.quoteAsset, .address quoteAsset),
      (.sweepNonce, .bigint sweepNonce), (.feeId, .bytes32 feeId), (.amount, .bigint amount),
      (.creatorAmount, .bigint creatorAmount), (.platformAmount, .bigint platformAmount)])
  | feeClaimed beneficiaryType beneficiary marketId beneficiaryEpoch feeAsset amount =>
    (.feeClaimed, Backend.args [(.beneficiaryType, .bigint beneficiaryType),
      (.beneficiary, .address beneficiary), (.marketId, .bytes32 marketId),
      (.beneficiaryEpoch, .bigint beneficiaryEpoch.toNat), (.feeAsset, .address feeAsset),
      (.amount, .bigint amount)])
  | forfeitureReserved marketId user feeAsset amount reserveBalance =>
    (.forfeitureReserved, Backend.args [(.marketId, .bytes32 marketId), (.user, .address user),
      (.feeAsset, .address feeAsset), (.amount, .bigint amount),
      (.reserveBalance, .bigint reserveBalance)])
  | forfeitureReserveConverted marketId feeAsset amount =>
    (.forfeitureReserveConverted, Backend.args [(.marketId, .bytes32 marketId),
      (.feeAsset, .address feeAsset), (.amount, .bigint amount)])
  | stakerFeeAbandoned marketId feeId feeAsset amount =>
    (.stakerFeeAbandoned, Backend.args [(.marketId, .bytes32 marketId), (.feeId, .bytes32 feeId),
      (.feeAsset, .address feeAsset), (.amount, .bigint amount)])
  | feeAssetDeficitCovered asset contributor amount remainingDeficit =>
    (.feeAssetDeficitCovered, Backend.args [(.asset, .address asset),
      (.contributor, .address contributor), (.amount, .bigint amount),
      (.remainingDeficit, .bigint remainingDeficit)])
  | userRewardsClaimed marketId user role creatorEpoch quotePaid memePaid =>
    (.userRewardsClaimed, Backend.args [(.marketId, .bytes32 marketId), (.user, .address user),
      (.role, .bigint role), (.creatorEpoch, .bigint creatorEpoch.toNat),
      (.quotePaid, .bigint quotePaid), (.memePaid, .bigint memePaid)])
  | memeFeesBurned marketId beneficiary role creatorEpoch token amount =>
    (.memeFeesBurned, Backend.args [(.marketId, .bytes32 marketId),
      (.beneficiary, .address beneficiary), (.role, .bigint role),
      (.creatorEpoch, .bigint creatorEpoch.toNat), (.token, .address token),
      (.amount, .bigint amount)])
  | holderFundingResult marketId asset status amount =>
    (.holderFundingResult, Backend.args [(.marketId, .bytes32 marketId), (.asset, .bigint asset),
      (.status, .bigint status), (.amount, .bigint amount)])
  | holderFundingBatchStopped nextMarket nextAsset =>
    (.holderFundingBatchStopped, Backend.args [(.nextMarket, .bigint nextMarket),
      (.nextAsset, .bigint nextAsset)])

/-- An event of the vault, as the projector reads it. -/
def decoded (e : Event) (log : RpcLog) : DecodedProtocolEvent where
  module := .protocolFeeVault
  eventName := e.decodedArgs.1
  args := e.decodedArgs.2
  log := log

end Event

end ProtocolFeeVault

namespace Backend

open ProtocolFeeVault (Event)

/-- Who a part of a fee is credited to. -/
inductive FeeRecipient
  | creator
  | stakers
  | platform
  | holders
deriving DecidableEq

/-- What one event credits to one recipient of a market's fees: the asset, the amount, and the log
it is of. -/
structure FeeTotal where
  marketId : Bytes32
  recipient : FeeRecipient
  asset : Address
  amountRaw : ℕ
  blockHash : Bytes32
  transactionHash : Bytes32
  logIndex : ℕ
deriving DecidableEq

/-! ### The source functions -/

/-- `hex32`. -/
def hex32 (value : Option ArgValue) : Except JsError Bytes32 :=
  match value with
  | some (.bytes32 hash) => .ok hash
  | _ => throwJs "invalid stored hash"

/-- `address`. -/
def storedAddress (value : Option ArgValue) : Except JsError Address :=
  match value with
  | some (.address a) => .ok a
  | _ => throwJs "invalid stored address"

/-- `bigint`: what is written without a sign. -/
def bigint (value : Option ArgValue) : Except JsError ℕ :=
  match value with
  | some (.bigint n) => if n < 0 then throwJs "invalid stored integer" else .ok n.toNat
  | _ => throwJs "invalid stored integer"

/-- One credit of an event. -/
def feeTotal (event : DecodedProtocolEvent) (marketId : Bytes32) (asset : Address)
    (entry : FeeRecipient × Option ArgValue) : Except JsError FeeTotal := do
  let amountRaw ← bigint entry.2
  return { marketId, recipient := entry.1, asset, amountRaw, blockHash := event.log.blockHash,
           transactionHash := event.log.transactionHash, logIndex := event.log.logIndex }

/-- `feeCredits`. -/
def feeCredits (event : DecodedProtocolEvent) : Except JsError (List FeeTotal) :=
  if event.module ≠ .protocolFeeVault then .ok []
  else match event.eventName with
  | .curveFeesSwept => do
    let marketId ← hex32 (event.args .marketId)
    let asset ← storedAddress (event.args .quoteAsset)
    [(FeeRecipient.creator, event.args .creatorAmount),
      (.platform, event.args .platformAmount)].mapM (feeTotal event marketId asset)
  | .feeBucketsCredited => do
    let marketId ← hex32 (event.args .marketId)
    let asset ← storedAddress (event.args .feeAsset)
    [(FeeRecipient.creator, event.args .creatorAmount), (.stakers, event.args .stakerAmount),
      (.platform, event.args .platformAmount)].mapM (feeTotal event marketId asset)
  | .holderFeesAccrued => do
    let marketId ← hex32 (event.args .marketId)
    let asset ← storedAddress (event.args .feeAsset)
    [(FeeRecipient.holders, event.args .amount)].mapM (feeTotal event marketId asset)
  | _ => .ok []

/-! ### What an event credits -/

/-- The credits of a role, in a market and an asset. -/
def creditedTo (recipient : FeeRecipient) (marketId : Bytes32) (asset : Address)
    (credits : List FeeTotal) : ℕ :=
  ((credits.filter fun c => c.recipient = recipient ∧ c.marketId = marketId ∧ c.asset = asset).map
    FeeTotal.amountRaw).sum

theorem creditedTo_append {recipient : FeeRecipient} {marketId : Bytes32} {asset : Address}
    (xs ys : List FeeTotal) : creditedTo recipient marketId asset (xs ++ ys)
      = creditedTo recipient marketId asset xs + creditedTo recipient marketId asset ys := by
  rw [creditedTo, List.filter_append, List.map_append, List.sum_append]
  rfl

end Backend

namespace ProtocolFeeVault

open Backend (FeeRecipient)

/-- An amount in one account, read from the point of view of another. -/
def onAccount {α : Type} [Zero α] (id marketId : Bytes32) (asset feeAsset : Address) (x : α) : α :=
  if marketId = id ∧ feeAsset = asset then x else 0

/-- What an event credits to a role, in a market and an asset. -/
def Event.credit (id : Bytes32) (asset : Address) (recipient : FeeRecipient) : Event → ℕ
  | .curveFeesSwept marketId _ quoteAsset _ _ _ creatorAmount platformAmount =>
    onAccount id marketId asset quoteAsset <| match recipient with
      | .creator => creatorAmount
      | .platform => platformAmount
      | .stakers | .holders => 0
  | .feeBucketsCredited marketId _ feeAsset _ creatorAmount stakerAmount platformAmount _ =>
    onAccount id marketId asset feeAsset <| match recipient with
      | .creator => creatorAmount
      | .stakers => stakerAmount
      | .platform => platformAmount
      | .holders => 0
  | .holderFeesAccrued marketId _ feeAsset amount =>
    onAccount id marketId asset feeAsset <| match recipient with
      | .holders => amount
      | .creator | .stakers | .platform => 0
  | _ => 0

end ProtocolFeeVault

namespace Backend

open ProtocolFeeVault (Event onAccount)

/-- **What the projector makes of an event of the vault**: it accepts it, and credits what
the event says. -/
theorem feeCredits_decoded (e : Event) (log : RpcLog) : ∃ credits,
    feeCredits (e.decoded log) = .ok credits ∧
      ∀ recipient id asset, creditedTo recipient id asset credits = e.credit id asset recipient := by
  cases e
  case curveFeesSwept marketId creatorEpoch quoteAsset sweepNonce feeId amount creator platform =>
    refine ⟨_, rfl, fun recipient id asset => ?_⟩
    cases recipient <;> by_cases h : marketId = id ∧ quoteAsset = asset <;>
      simp [creditedTo, Event.credit, onAccount, h]
  case feeBucketsCredited marketId creatorEpoch feeAsset feeId creator staker platform active =>
    refine ⟨_, rfl, fun recipient id asset => ?_⟩
    cases recipient <;> by_cases h : marketId = id ∧ feeAsset = asset <;>
      simp [creditedTo, Event.credit, onAccount, h]
  case holderFeesAccrued marketId epochId feeAsset amount =>
    refine ⟨_, rfl, fun recipient id asset => ?_⟩
    cases recipient <;> by_cases h : marketId = id ∧ feeAsset = asset <;>
      simp [creditedTo, Event.credit, onAccount, h]
  all_goals exact ⟨[], rfl, fun _ _ _ => rfl⟩

/-- **The credits of a log**, at any places of its events. -/
theorem feeCredits_log (es : List Event) (logs : List RpcLog) (hlength : logs.length = es.length) :
    ∃ credits, (List.zipWith Event.decoded es logs).mapM feeCredits = .ok credits ∧
      ∀ recipient id asset, creditedTo recipient id asset credits.flatten
        = (es.map (Event.credit id asset recipient)).sum := by
  induction es generalizing logs with
  | nil => exact ⟨[], rfl, fun _ _ _ => rfl⟩
  | cons e es ih =>
    obtain _ | ⟨log, logs⟩ := logs
    · simp at hlength
    obtain ⟨credits, hcredits, hsum⟩ := feeCredits_decoded e log
    obtain ⟨rest, hrest, hsums⟩ := ih logs (by simpa using hlength)
    refine ⟨credits :: rest, ?_, fun recipient id asset => ?_⟩
    · rw [List.zipWith_cons_cons, List.mapM_cons, hcredits, ok_bind, hrest]
      rfl
    · rw [List.flatten_cons, creditedTo_append, hsum, hsums, List.map_cons, List.sum_cons]

end Backend

end TickerGarden
