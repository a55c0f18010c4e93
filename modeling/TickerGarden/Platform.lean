import Mathlib.Logic.Function.Basic
import TickerGarden.Errors

/-!
# The platform under the contracts

What the contracts stand on and do not define themselves: the hash function, the
Uniswap v4 libraries, and the token balances.

* `TickerGarden.Platform` collects the parts whose code is elsewhere. Hashing is an
  arbitrary function on `TickerGarden.Preimage`, one constructor for each tuple the
  contracts encode; the v4 libraries are arbitrary fallible functions.
* `TickerGarden.Balances` is the ledger of **exact-transfer** assets: a transfer is
  refused when the sender has too little, and otherwise moves exactly its amount.
  The native currency is the asset at the zero address. A transfer may be refused
  for reasons the ledger does not see – a missing allowance, a recipient that
  declines the currency; such a call reverts as a whole and leaves no trace, so the
  runs of the model include all runs of the contracts.
-/

namespace TickerGarden

/-- The tuples the contracts hash. The domain strings and schema versions are part
of the tuple, as in the source. -/
inductive Preimage
  /-- The bytes of a text. -/
  | text (value : String)
  /-- `abi.encode(key)`: the identity of a v4 pool. -/
  | poolKey (key : PoolKey)
  /-- The economics of a quote asset. -/
  | quoteEconomics (domain : String) (schemaVersion chainId : ℕ) (baselineId : Bytes32)
      (quoteAsset : Address) (quoteDecimals phantomQuote graduationThreshold : ℕ)
  /-- What a registry has observed of the code of a stock token. -/
  | fingerprint (value : StockTokenFingerprint)
  /-- The identity of a stock token used as a quote asset. -/
  | stockQuoteFingerprint (domain : String) (schemaVersion chainId : ℕ) (assetUid : Bytes32)
      (stockToken : Address) (tokenDecimals : ℕ) (fingerprint : StockTokenFingerprint)
  /-- The economics of a quote asset that is a stock token. -/
  | stockQuoteEconomics (domain : String) (schemaVersion chainId : ℕ) (baselineId : Bytes32)
      (quoteAsset : Address) (quoteDecimals phantomQuote graduationThreshold : ℕ)
      (binding : StockQuoteBinding)
  /-- A sweep of curve fees. -/
  | curveSweep (domain : String) (schemaVersion chainId : ℕ) (feeVault curve : Address)
      (marketId : Bytes32) (sourceVersion sweepNonce : ℕ) (quoteAsset : Address)
      (amount creatorTaxAmount : ℕ)
  /-- A policy of swap fees. -/
  | feePolicy (domain : String) (schemaVersion : ℕ) (executionSpecId : Bytes32)
      (feePips lpShareBps poolKeyFee : ℕ) (hookPermissionMask : Address)
      (feeAssetMode stakerNonLpShareBps platformNonLpShareBps : ℕ)
  /-- A swap fee. -/
  | v4Fee (domain : String) (schemaVersion chainId : ℕ) (feeVault poolManager : Address)
      (poolId marketId : Bytes32) (sourceVersion feeNonce : ℕ) (feeAsset : Address)
      (base totalFee : ℕ) (feePolicyHash : Bytes32)
  /-- One word: the hash of a hash. -/
  | word (value : Bytes32)
  /-- Two words: a node of a Merkle tree. -/
  | pair (first second : Bytes32)
  /-- What an account is entitled to by a holder snapshot. -/
  | holderLeaf (domain : Bytes32) (chainId : ℕ) (distributor : Address) (marketId : Bytes32)
      (round : ℕ) (account : Address) (quoteAmount memeAmount : ℕ)
  /-- The accounts that an eligibility policy excludes. -/
  | eligibilityPolicy (domain : Bytes32) (chainId : ℕ) (marketId : Bytes32)
      (excluded : List Address)
  /-- What an account is entitled to by a treasury root. -/
  | treasuryLeaf (domain schema : Bytes32) (chainId : ℕ) (distributor : Address)
      (marketId : Bytes32) (epochId : ℕ) (memeToken quoteToken : Address)
      (eligibilityPolicyHash : Bytes32) (windowStart windowEnd sourceBlockNumber : ℕ)
      (sourceBlockHash : Bytes32) (index : ℕ) (account : Address) (twab amount : ℕ)
  /-- The contents of a baseline. -/
  | launchBaseline (domain : String) (schemaVersion referenceChainId : ℕ)
      (referenceFactory : Address) (referenceFactoryCodeHash : Bytes32)
      (launchConfigId supply curveFeeBps poolFee : ℕ) (tickSpacing : ℤ)
      (behaviorVectorRoot : Bytes32)
  /-- The contents of a launch template: its components, with their code. -/
  | launchTemplate (domain : String) (schemaVersion : ℕ) (memeTokenImplementation : Address)
      (memeTokenCodeHash : Bytes32) (curveImplementation : Address) (curveCodeHash : Bytes32)
      (gaugeImplementation : Address) (gaugeCodeHash : Bytes32) (graduatedHook : Address)
      (hookCodeHash : Bytes32) (graduationExecutor : Address) (graduationExecutorCodeHash : Bytes32)
      (feePolicyId executionSpecId : Bytes32)
  /-- The economics of a market. -/
  | expectedEconomics (domain : String) (schemaVersion : ℕ) (value : ExpectedEconomicsInput)
deriving DecidableEq

/-- The code the contracts call that is not theirs. -/
structure Platform where
  /-- `block.chainid`. -/
  chainId : ℕ
  keccak256 : Preimage → Bytes32
  /-- `TickMath.getTickAtSqrtPrice`. -/
  getTickAtSqrtPrice : ℕ → Except Revert ℤ
  /-- `TickMath.getSqrtPriceAtTick`. -/
  getSqrtPriceAtTick : ℤ → Except Revert ℕ
  /-- `LiquidityAmounts.getLiquidityForAmounts`. -/
  getLiquidityForAmounts : ℕ → ℕ → ℕ → ℕ → ℕ → Except Revert ℕ
  /-- `Pool.tickSpacingToMaxLiquidityPerTick`. -/
  tickSpacingToMaxLiquidityPerTick : ℤ → Except Revert ℕ
  /-- `SqrtPriceMath.getAmount0Delta`, rounding up. -/
  getAmount0Delta : ℕ → ℕ → ℕ → Bool → Except Revert ℕ
  /-- `SqrtPriceMath.getAmount1Delta`, rounding up. -/
  getAmount1Delta : ℕ → ℕ → ℕ → Bool → Except Revert ℕ

/-! ### Balances -/

/-- The balance of every account in every asset. -/
abbrev Balances := Address → Address → ℕ

/-- A transfer between two accounts. -/
structure Transfer where
  asset : Address
  sender : Address
  recipient : Address
  amount : ℕ

namespace Balances

variable {b b' : Balances} {asset a sender recipient h : Address} {amount n : ℕ}

/-- The ledger with one balance replaced. -/
def set (b : Balances) (asset holder : Address) (amount : ℕ) : Balances :=
  fun a h => if a = asset ∧ h = holder then amount else b a h

@[simp] theorem set_apply :
    set b asset sender n a h = if a = asset ∧ h = sender then n else b a h := rfl

/-- **An exact transfer**: refused if the sender has too little. -/
def move (b : Balances) (asset sender recipient : Address) (amount : ℕ) : Option Balances :=
  if amount ≤ b asset sender then
    let debited := b.set asset sender (b asset sender - amount)
    some (debited.set asset recipient (debited asset recipient + amount))
  else none

theorem move_eq_some (h : b.move asset sender recipient amount = some b') :
    amount ≤ b asset sender ∧
      b' = (b.set asset sender (b asset sender - amount)).set asset recipient
        ((b.set asset sender (b asset sender - amount)) asset recipient + amount) := by
  unfold move at h
  split at h
  · rename_i hle
    exact ⟨hle, (Option.some.inj h).symm⟩
  · cases h

/-- Nobody but the sender loses anything by a transfer. -/
theorem le_of_move (h : b.move asset sender recipient amount = some b') {holder : Address}
    (hne : holder ≠ sender) (a : Address) : b a holder ≤ b' a holder := by
  obtain ⟨-, rfl⟩ := move_eq_some h
  have hs : ¬(a = asset ∧ holder = sender) := fun h => hne h.2
  by_cases hr : a = asset ∧ holder = recipient
  · obtain ⟨rfl, rfl⟩ := hr
    simp [hne]
  · simp [hr, hs]

/-- A transfer leaves the other assets alone. -/
theorem move_other (h : b.move asset sender recipient amount = some b') (hne : a ≠ asset)
    (holder : Address) : b' a holder = b a holder := by
  obtain ⟨-, rfl⟩ := move_eq_some h
  simp [hne]

/-- What the sender loses. -/
theorem move_sender (h : b.move asset sender recipient amount = some b')
    (hne : sender ≠ recipient) : b' asset sender = b asset sender - amount := by
  obtain ⟨-, rfl⟩ := move_eq_some h
  simp [hne]

/-- What the recipient gains. -/
theorem move_recipient (h : b.move asset sender recipient amount = some b')
    (hne : sender ≠ recipient) : b' asset recipient = b asset recipient + amount := by
  obtain ⟨-, rfl⟩ := move_eq_some h
  simp [hne.symm]

/-- The sender loses at most the amount, in any asset. -/
theorem le_of_move_sender (h : b.move asset sender recipient amount = some b') :
    b asset sender ≤ b' asset sender + amount := by
  obtain ⟨-, rfl⟩ := move_eq_some h
  by_cases hr : sender = recipient
  · simp [hr]
    omega
  · simp [hr]
    omega

/-- A transfer of nothing changes nothing. -/
theorem move_zero (h : b.move asset sender recipient 0 = some b') (a holder : Address) :
    b' a holder = b a holder := by
  obtain ⟨-, rfl⟩ := move_eq_some h
  have hsame : b.set asset sender (b asset sender - 0) = b := by
    funext a h
    by_cases hs : a = asset ∧ h = sender
    · obtain ⟨rfl, rfl⟩ := hs
      simp
    · simp [hs]
  rw [hsame]
  by_cases hr : a = asset ∧ holder = recipient
  · obtain ⟨rfl, rfl⟩ := hr
    simp
  · simp [hr]

/-- A transfer to oneself changes nothing. -/
theorem move_self (h : b.move asset sender sender amount = some b') : b' = b := by
  obtain ⟨hle, rfl⟩ := move_eq_some h
  funext a holder
  by_cases h1 : a = asset ∧ holder = sender
  · obtain ⟨rfl, rfl⟩ := h1
    simp [Nat.sub_add_cancel hle]
  · simp [h1]

/-- A transfer the sender can afford goes through. -/
theorem move_isSome (h : amount ≤ b asset sender) :
    ∃ b', b.move asset sender recipient amount = some b' := by
  unfold move
  rw [if_pos h]
  exact ⟨_, rfl⟩

/-- **A burn**: refused if the holder has too little. -/
def burn (b : Balances) (asset holder : Address) (amount : ℕ) : Option Balances :=
  if amount ≤ b asset holder then some (b.set asset holder (b asset holder - amount)) else none

theorem burn_eq_some (h : b.burn asset sender amount = some b') :
    amount ≤ b asset sender ∧ b' = b.set asset sender (b asset sender - amount) := by
  unfold burn at h
  split at h
  · rename_i hle
    exact ⟨hle, (Option.some.inj h).symm⟩
  · cases h

/-- Transfers made by accounts other than `self`, in order. A transfer out of the
account `self` is refused: it has approved nobody. -/
def moveAll (self : Address) : List Transfer → Balances → Option Balances
  | [], b => some b
  | t :: ts, b =>
    if t.sender = self then none
    else (b.move t.asset t.sender t.recipient t.amount).bind (moveAll self ts)

end Balances

end TickerGarden
