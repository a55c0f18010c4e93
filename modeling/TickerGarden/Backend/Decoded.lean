import TickerGarden.Lib.Checked
import TickerGarden.Types

/-!
# Decoded events

What the services of the backend read of the chain: logs, and the events they decode to.
A decoded event has its arguments under the names of the interface file, integers as
arbitrarily large ones. A service runs in an exception monad whose errors are the texts it
throws.

A log carries its place in the chain. The two indices of that place are below the greatest
integer a number of the services represents exactly, which no block comes near; this is part
of the type `TickerGarden.Backend.RpcLog`, so that reading a position never fails
(`TickerGarden.Backend.RpcLog.sourceBlock`).
-/

namespace TickerGarden

open Checked

namespace Backend

/-- `new Error(message)`. -/
structure JsError where
  message : String
deriving DecidableEq

/-- `Number.MAX_SAFE_INTEGER`. -/
def maxSafeInteger : ℕ := 2 ^ 53 - 1

theorem zero_le_maxSafeInteger : 0 ≤ maxSafeInteger := Nat.zero_le _

theorem one_le_maxSafeInteger : 1 ≤ maxSafeInteger := by decide

/-- A log of the chain, as far as the services read it. -/
structure RpcLog where
  address : Address
  blockHash : Bytes32
  blockNumber : ℕ
  transactionHash : Bytes32
  transactionIndex : ℕ
  logIndex : ℕ
  transactionIndex_le : transactionIndex ≤ maxSafeInteger
  logIndex_le : logIndex ≤ maxSafeInteger

/-- The contracts whose events are modelled. -/
inductive Module
  | tickerGardenCurve
  | userStockVault
  | tickerMemeToken
  | protocolFeeVault
  | uniswapV4PoolManager
  | tickerGardenMemeHook
  | other (name : String)
deriving DecidableEq

/-- The events that are modelled. -/
inductive EventName
  | curveBuy
  | curveSell
  | stockDeposited
  | stockWithdrawn
  | allocationLocked
  | allocationReleased
  | transfer
  | holderFeesAccrued
  | feeBucketsCredited
  | curveFeesSwept
  | feeClaimed
  | forfeitureReserved
  | forfeitureReserveConverted
  | stakerFeeAbandoned
  | feeAssetDeficitCovered
  | userRewardsClaimed
  | memeFeesBurned
  | holderFundingResult
  | holderFundingBatchStopped
  | swap
  | v4FeeAccrued
  | rewardBatchConverted
  | holderRewardsConverted
  | other (name : String)
deriving DecidableEq

/-- The names of their arguments. -/
inductive ArgName
  | buyer
  | seller
  | recipient
  | quoteIn
  | quoteOut
  | tokensIn
  | tokensOut
  | fee
  | tax
  | assetUid
  | user
  | marketId
  | amount
  | userMarketAllocation
  | userTotalAllocated
  | principal
  | epochId
  | feeAsset
  | feeId
  | creatorEpoch
  | creatorAmount
  | stakerAmount
  | platformAmount
  | activeStock
  | quoteAsset
  | sweepNonce
  | beneficiaryType
  | beneficiary
  | beneficiaryEpoch
  | reserveBalance
  | asset
  | contributor
  | remainingDeficit
  | role
  | quotePaid
  | memePaid
  | token
  | status
  | nextMarket
  | nextAsset
  | id
  | sender
  | amount0
  | amount1
  | poolId
  | feeNonce
  | base
  | totalFee
  | lpAmount
  | nonLpAmount
  | memeAsset
  | memeSpent
  | quoteReceived
  | nonce
  | fromAccount
  | toAccount
  | value
deriving DecidableEq

/-- The value of an argument. -/
inductive ArgValue
  | bigint (value : ℤ)
  | address (value : Address)
  | bytes32 (value : Bytes32)
deriving DecidableEq

/-- `Record<string, unknown>`. -/
abbrev Args := ArgName → Option ArgValue

/-- The record with the given entries. -/
def args (entries : List (ArgName × ArgValue)) : Args := fun name => entries.lookup name

/-- An event of the protocol, decoded, with the log it comes from. -/
structure DecodedProtocolEvent where
  module : Module
  eventName : EventName
  args : Args
  log : RpcLog

/-- An event with the timestamp of its block. -/
structure EventObservation where
  event : DecodedProtocolEvent
  timestamp : ℕ

/-- Throw an error. -/
def throwJs {α : Type} (message : String) : Except JsError α := .error ⟨message⟩

/-- Throw an error under a condition. -/
abbrev throwIf (c : Prop) [Decidable c] (message : String) : Except JsError Unit :=
  revertIf c ⟨message⟩

/-- `/^[A-Za-z0-9._:-]{1,160}$/`. -/
def isToken (value : String) : Bool :=
  1 ≤ value.length && value.length ≤ 160 &&
    value.toList.all fun c => c.isAlphanum || "._:-".toList.contains c

/-- The length of a text, in UTF-16 code units. -/
def jsLength (value : String) : ℕ :=
  (value.toList.map fun c => if c.toNat < 0x10000 then 1 else 2).sum

/-- `safeNumber`: an integer a number represents exactly. -/
def safeNumber (value : ℕ) (message : String) : Except JsError ℕ := do
  throwIf (value > maxSafeInteger) message
  return value

@[simp] theorem safeNumber_transactionIndex (log : RpcLog) (message : String) :
    safeNumber log.transactionIndex message = .ok log.transactionIndex := by
  simp [safeNumber, log.transactionIndex_le]

@[simp] theorem safeNumber_logIndex (log : RpcLog) (message : String) :
    safeNumber log.logIndex message = .ok log.logIndex := by
  simp [safeNumber, log.logIndex_le]

end Backend

end TickerGarden
