import Mathlib.Data.List.MinMax
import TickerGarden.Lib.Table
import TickerGarden.Lib.Transition

/-!
# The projection of the Go backend

`State.apply` takes one event of the protocol, with what was observed of the chain at its block,
and turns it into rows of sixteen tables. Everything an event changes is written into a **stage**
first, which is put over the tables when nothing has failed.

The decoding of logs, the normal form of observations and the JSON that a fingerprint is kept as
are parameters (`Codec`), and so is the order in which Go goes through the entries of a map
(`MapOrder`), which it does not fix. The decoding by the catalog of the protocol's events is one
that the parameter may be (`TickerGarden.Backend.EventProjection.decode`).

A number of a position is kept as such where the code keeps its decimal text.
-/

namespace TickerGarden

open Checked

namespace Backend

namespace EventProjection

/-! ### Rows -/

/-- A value of a row. What is neither a text nor a flag is known by its JSON. -/
inductive Value
  | null
  | text (s : String)
  | flag (b : Bool)
  | json (text : String)
deriving DecidableEq

/-- The values of a row: `map[string]any`. -/
abbrev Values := Table String Value

/-- `v[k]`. -/
def field (v : Values) (k : String) : Value := (v.lookup k).getD .null

/-- A value as a text; what is not a text counts as the empty one, as the type assertion of the code
gives it. -/
def Value.str : Value → String
  | .text s => s
  | _ => ""

/-- `str(v[k])`. -/
def str (v : Values) (k : String) : String := (field v k).str

/-- A literal of a row. -/
def fields (entries : List (String × Value)) : Values :=
  entries.foldl (fun v e => v.insert e.1 e.2) ∅

/-- The entries of `b` over those of `a`. -/
def combine (a b : Values) : Values := b ∪ a

/-- `strings.ToLower`, of a text in ASCII. -/
def lower (s : String) : String := String.ofList (s.toList.map Char.toLower)

/-- The key of a row: its parts, joined by colons, in lower case. -/
def key (parts : List String) : String := lower (String.intercalate ":" parts)

/-- `strings.EqualFold`, of texts in ASCII. -/
def equalFold (s t : String) : Bool := lower s = lower t

/-- Where an event stands on its chain, who emitted it, and the key that tells it from all others.
Every row has the provenance of the event that wrote it last. -/
structure Provenance where
  chainId : ℕ
  blockNumber : ℕ
  blockHash : String
  transactionHash : String
  transactionIndex : ℕ
  logIndex : ℕ
  emitter : String
  eventKey : String
deriving DecidableEq

/-- A row of most tables. -/
structure KeyedRow where
  key : String
  values : Values
  provenance : Provenance

/-- A market, under its identifier in lower case. -/
structure MarketRow where
  marketId : String
  values : Values
  provenance : Provenance

/-- A configuration of one kind, with its status, which an observation never changes. -/
structure ConfigRow where
  kind : String
  id : String
  status : String
  values : Values
  provenance : Provenance

/-- A swap, and the fee that is paired with it. -/
structure SwapRow where
  eventKey : String
  poolId : String
  values : Values
  provenance : Provenance
  hookFeeEventKey : Option String
  feeId : Option String

/-- An event, as it was decoded, in the table of all that were accepted. -/
structure EventRow where
  provenance : Provenance
  signature : String
  args : Values

/-- The tables whose rows are `KeyedRow`. -/
inductive TableName
  | pools
  | poolEvents
  | curveTrades
  | stockPositions
  | allocations
  | activationBuckets
  | gaugePositions
  | rewardExits
  | feeCredits
  | feeClaims
  | feeClaimTotals
  | observations
deriving DecidableEq

/-- The sixteen tables of the projection: four with rows of their own, and those whose rows are
keyed values. -/
structure Tables where
  events : Table String EventRow
  configs : Table String ConfigRow
  markets : Table String MarketRow
  swaps : Table String SwapRow
  keyed : TableName → Table String KeyedRow

/-- No table has a row. -/
def Tables.empty : Tables := ⟨∅, ∅, ∅, ∅, fun _ => ∅⟩

/-- The rows of one collection of tables over those of another. -/
def Tables.onto (changes tables : Tables) : Tables where
  events := changes.events ∪ tables.events
  configs := changes.configs ∪ tables.configs
  markets := changes.markets ∪ tables.markets
  swaps := changes.swaps ∪ tables.swaps
  keyed t := changes.keyed t ∪ tables.keyed t

/-! ### Inputs -/

/-- A log as the node returns it. -/
structure Log where
  address : String
  topics : List String
  data : String
  blockNumber : String
  blockHash : String
  transactionHash : String
  transactionIndex : String
  logIndex : String
  removed : Bool
deriving DecidableEq

/-- What was read of the chain at the block of an event: the kind of thing, which one it is, and the
values it has, if the reading was of the right form. -/
structure Observation where
  kind : String
  key : String
  value : Option Values

/-- An input of `Apply`: a log, the module its emitter is bound to, and the observations that come
with it. -/
structure Input where
  chainId : ℕ
  module : String
  log : Log
  observations : List Observation

/-- What `events.Decode` returns. -/
structure Decoded where
  signature : String
  emitter : String
  args : Values

/-- What the fingerprint of an input is the JSON of. -/
structure Body where
  module : String
  provenance : Provenance
  signature : String
  args : Values
  observations : List Observation

/-- What an input goes through that the projection does not fix: `events.Decode`, the passage of
the observations through JSON, and `json.Marshal`. -/
structure Codec where
  decode : String → Log → Except String Decoded
  normalize : List Observation → Except String (List Observation)
  marshal : Body → String

/-- `State`. Its last position is that of an event. -/
structure State where
  tables : Tables
  last : Option Provenance
  fingerprints : Table String String
  changes : Option Tables

/-- `New`: nothing was projected yet. -/
def State.new : State := ⟨.empty, none, ∅, none⟩

/-- What `Snapshot` is the JSON of. -/
def State.snapshot (s : State) : Tables × Option Provenance := (s.tables, s.last)

/-! ### Stages -/

/-- An order in which the entries of a map come. -/
structure MapOrder where
  arrange : ∀ {β : Type}, List (String × β) → List (String × β)
  perm : ∀ {β : Type} (l : List (String × β)), (arrange l).Perm l

/-- The entries of a table, as `range` goes through them. -/
def MapOrder.range (o : MapOrder) {β : Type} (m : Table String β) : List (String × β) :=
  o.arrange (m.entries.map fun e => (e.1, e.2))

/-- An event on its way: the state before it, which is only read, and the rows that it has written
so far. -/
structure Stage where
  state : State
  changes : Tables
  provenance : Provenance

/-- The row of a table under a key, as the event sees it: its own writing, or else what was there
before. -/
def Stage.get (x : Stage) (t : TableName) (k : String) : Option KeyedRow :=
  ((x.changes.keyed t).lookup k).or ((x.state.tables.keyed t).lookup k)

/-- The row of a market, as the event sees it. -/
def Stage.getMarket (x : Stage) (k : String) : Option MarketRow :=
  (x.changes.markets.lookup k).or (x.state.tables.markets.lookup k)

/-- The row of a configuration, as the event sees it. -/
def Stage.getConfig (x : Stage) (k : String) : Option ConfigRow :=
  (x.changes.configs.lookup k).or (x.state.tables.configs.lookup k)

/-- The values of a row, none if there is no row. -/
def values (r : Option KeyedRow) : Values := (r.map KeyedRow.values).getD ∅

/-- A row is written anew, with the provenance of the event. -/
def Stage.put (t : TableName) (k : String) (v : Values) (x : Stage) : Stage :=
  let rows := (x.changes.keyed t).insert k ⟨k, v, x.provenance⟩
  { x with changes := { x.changes with keyed := Function.update x.changes.keyed t rows } }

/-- Values are written over those of a row; the ones that are not among them stay. -/
def Stage.merge (t : TableName) (k : String) (v : Values) (x : Stage) : Stage :=
  x.put t k (combine (values (x.get t k)) v)

/-- Values are written over those of a market, which is made if there is none. -/
def Stage.market (id : String) (v : Values) (x : Stage) : Stage :=
  let k := key [id]
  let old := ((x.getMarket k).map MarketRow.values).getD ∅
  let rows := x.changes.markets.insert k ⟨k, combine old v, x.provenance⟩
  { x with changes := { x.changes with markets := rows } }

/-- A configuration is written, with its status: over the values it had, or in their place. -/
def Stage.config (kind id status : String) (v : Values) (replace : Bool) (x : Stage) : Stage :=
  let k := key [kind, id]
  let old := ((x.getConfig k).map ConfigRow.values).getD ∅
  let v := if replace then v else combine old v
  let rows := x.changes.configs.insert k ⟨kind, key [id], status, v, x.provenance⟩
  { x with changes := { x.changes with configs := rows } }

/-- The row of a swap is written. -/
def Stage.setSwap (k : String) (row : SwapRow) (x : Stage) : Stage :=
  { x with changes := { x.changes with swaps := x.changes.swaps.insert k row } }

/-- The event itself is written, as the last thing that is done for it. -/
def Stage.setEvent (k : String) (row : EventRow) (x : Stage) : Stage :=
  { x with changes := { x.changes with events := x.changes.events.insert k row } }

/-- What the gauge says of a position is written to the allocation of the vault, if the asset of the
position is known. -/
def Stage.allocationForGauge (user market : String) (patch : Values) (x : Stage) : Stage :=
  let v := values (x.get .gaugePositions (key [user, market]))
  let asset := str v "assetUid"
  if asset ≠ "" then x.merge .allocations (key [asset, user, market]) patch else x

/-- The market whose curve is the emitter, the first that comes. -/
def Stage.curveMarket (o : MapOrder) (x : Stage) (emitter : String) : Except String String :=
  match (o.range x.state.tables.markets).find? fun e => equalFold (str e.2.values "curve")
    emitter with
  | some (id, _) => return id
  | none => .error "unknown Curve emitter"

/-- The fee of an identifier is of one market and one asset: a value that is there already may not
be another one. -/
def Stage.feeIdentity (x : Stage) (id market asset : String) : Except String Unit :=
  let old := values (x.get .feeCredits (key [id]))
  revertIf (∃ e ∈ [("marketId", market), ("feeAsset", asset), ("quoteAsset", asset)],
    str old e.1 ≠ "" ∧ equalFold (str old e.1) e.2 = false)
    "conflicting canonical fee identity"

/-! ### Events -/

/-- The events that have a case of their own. -/
inductive EventName
  | allocationRageQuitExecuted | rageQuitRewardSettlementFinalized | gaugeRageQuit
  | stakerFeeCredited | feeBucketsCredited | curveFeesSwept | v4FeeAccrued
  | assetRegistered | quoteAssetConfigAdded | tickerGardenBaselineAdded | launchTemplateAdded
  | assetStatusChanged | quoteAssetStatusChanged | tickerGardenBaselineStatusChanged
  | launchTemplateStatusChanged
  | assetMinimumAllocationChanged | stockTokenFingerprintRegistered | assetImplementationAccepted
  | quoteAssetIdentityPinned | stockQuoteConfigBound
  | marketCreated | marketRegistered | launchPhaseChanged
  | creatorRevenueEpochInitialized | creatorRevenueBeneficiaryUpdated
  | curveBuy | curveSell | curveBuyRefunded | curveFeeTransferred | curveCompleted
  | expectedPoolRegistered | poolBindingActivated | poolGraduated | donate
  | stockDeposited | stockWithdrawn
  | allocationLocked | allocationReleased | allocationRageQuit
  | rageQuitRewardSettlementQueued | rageQuitRewardSettlementCompleted
  | rageQuitRewardSettlementDeferred
  | pendingScheduled | pendingRescheduled | pendingMaterialized | rewardConverted
  | rawRewardExitRequested | rawRewardExitCancelled
  | forfeitureRecordDeferred | forfeitureRecordFlushed | activationBucketProcessed
  | forfeitureReserved | forfeitureReserveConverted | feeClaimed | swap
  | other
deriving DecidableEq

/-- The names, as the signatures have them. -/
def eventNames : List (String × EventName) :=
  [("Swap", .swap), ("V4FeeAccrued", .v4FeeAccrued),
    ("AllocationRageQuitExecuted", .allocationRageQuitExecuted),
    ("RageQuitRewardSettlementFinalized", .rageQuitRewardSettlementFinalized),
    ("GaugeRageQuit", .gaugeRageQuit), ("StakerFeeCredited", .stakerFeeCredited),
    ("FeeBucketsCredited", .feeBucketsCredited), ("CurveFeesSwept", .curveFeesSwept),
    ("AssetRegistered", .assetRegistered),
    ("QuoteAssetConfigAdded", .quoteAssetConfigAdded),
    ("TickerGardenBaselineAdded", .tickerGardenBaselineAdded),
    ("LaunchTemplateAdded", .launchTemplateAdded), ("AssetStatusChanged", .assetStatusChanged),
    ("QuoteAssetStatusChanged", .quoteAssetStatusChanged),
    ("TickerGardenBaselineStatusChanged", .tickerGardenBaselineStatusChanged),
    ("LaunchTemplateStatusChanged", .launchTemplateStatusChanged),
    ("AssetMinimumAllocationChanged", .assetMinimumAllocationChanged),
    ("StockTokenFingerprintRegistered", .stockTokenFingerprintRegistered),
    ("AssetImplementationAccepted", .assetImplementationAccepted),
    ("QuoteAssetIdentityPinned", .quoteAssetIdentityPinned),
    ("StockQuoteConfigBound", .stockQuoteConfigBound), ("MarketCreated", .marketCreated),
    ("MarketRegistered", .marketRegistered), ("LaunchPhaseChanged", .launchPhaseChanged),
    ("CreatorRevenueEpochInitialized", .creatorRevenueEpochInitialized),
    ("CreatorRevenueBeneficiaryUpdated", .creatorRevenueBeneficiaryUpdated),
    ("CurveBuy", .curveBuy), ("CurveSell", .curveSell), ("CurveBuyRefunded", .curveBuyRefunded),
    ("CurveFeeTransferred", .curveFeeTransferred), ("CurveCompleted", .curveCompleted),
    ("ExpectedPoolRegistered", .expectedPoolRegistered),
    ("PoolBindingActivated", .poolBindingActivated), ("PoolGraduated", .poolGraduated),
    ("Donate", .donate), ("StockDeposited", .stockDeposited), ("StockWithdrawn", .stockWithdrawn),
    ("AllocationLocked", .allocationLocked), ("AllocationReleased", .allocationReleased),
    ("AllocationRageQuit", .allocationRageQuit),
    ("RageQuitRewardSettlementQueued", .rageQuitRewardSettlementQueued),
    ("RageQuitRewardSettlementCompleted", .rageQuitRewardSettlementCompleted),
    ("RageQuitRewardSettlementDeferred", .rageQuitRewardSettlementDeferred),
    ("PendingScheduled", .pendingScheduled), ("PendingRescheduled", .pendingRescheduled),
    ("PendingMaterialized", .pendingMaterialized), ("RewardConverted", .rewardConverted),
    ("RawRewardExitRequested", .rawRewardExitRequested),
    ("RawRewardExitCancelled", .rawRewardExitCancelled),
    ("ForfeitureRecordDeferred", .forfeitureRecordDeferred),
    ("ForfeitureRecordFlushed", .forfeitureRecordFlushed),
    ("ActivationBucketProcessed", .activationBucketProcessed),
    ("ForfeitureReserved", .forfeitureReserved),
    ("ForfeitureReserveConverted", .forfeitureReserveConverted), ("FeeClaimed", .feeClaimed)]

/-- `strings.SplitN(signature, "(", 2)[0]`, as a case of the switch. -/
def nameOf (signature : String) : EventName :=
  (eventNames.lookup (String.ofList (signature.toList.takeWhile (· ≠ '(')))).getD .other

/-- The checks that come before an event is applied. -/
def Stage.check (x : Stage) (name : EventName) (a : Values) : Except String Unit :=
  match name with
  | .allocationRageQuitExecuted | .rageQuitRewardSettlementFinalized | .gaugeRageQuit =>
    revertIf (field a "redistributed" = .flag true)
      "redistribution violates platform forfeiture policy"
  | .stakerFeeCredited | .feeBucketsCredited | .v4FeeAccrued =>
    x.feeIdentity (str a "feeId") (str a "marketId") (str a "feeAsset")
  | .curveFeesSwept => x.feeIdentity (str a "feeId") (str a "marketId") (str a "quoteAsset")
  | _ => return ()

/-- The kind and the id of what has a new status. -/
def statusChanged (name : EventName) (a : Values) : String × String :=
  match name with
  | .quoteAssetStatusChanged => ("quote", str a "configId")
  | .tickerGardenBaselineStatusChanged => ("baseline", str a "baselineId")
  | .launchTemplateStatusChanged => ("template", str a "launchTemplateId")
  | _ => ("asset", str a "assetUid")

/-- What a step of a settlement says of the position. -/
def settlementPatch (name : EventName) (a : Values) : Values :=
  match name with
  | .rageQuitRewardSettlementQueued =>
    fields [("rageQuitSettlementPending", .flag true),
      ("rageQuitSettlementPrincipal", field a "principal"),
      ("rageQuitSettlementStatus", .text "queued")]
  | .rageQuitRewardSettlementCompleted =>
    fields [("rageQuitSettlementPending", .flag false), ("rageQuitSettlementPrincipal", .text "0"),
      ("rageQuitSettlementCompletedPrincipal", field a "principal"),
      ("rageQuitSettlementStatus", .text "completed")]
  | .rageQuitRewardSettlementDeferred =>
    fields [("rageQuitSettlementPending", .flag true),
      ("rageQuitSettlementPrincipal", field a "principal"),
      ("rageQuitSettlementGauge", field a "gauge"),
      ("rageQuitSettlementStatus", .text "deferred")]
  | .rageQuitRewardSettlementFinalized =>
    fields [("rageQuitSettlementPending", .flag false), ("rageQuitSettlementPrincipal", .text "0"),
      ("rageQuitSettlementCompletedPrincipal", field a "principal"),
      ("rageQuitSettlementStatus", .text "finalized"),
      ("rageQuitQuoteForfeited", field a "quoteForfeited"),
      ("rageQuitMemeForfeited", field a "memeForfeited"),
      ("rageQuitRewardsRedistributed", .flag false),
      ("rageQuitForfeitureDestination", .text "platform_forfeiture_reserve")]
  | _ => ∅

/-- The number that a text of decimal digits writes. Signs, blanks and the empty text write none. -/
def natural (digits : List Char) : Option ℕ :=
  if digits ≠ [] ∧ digits.all Char.isDigit = true then some (Nat.ofDigitChars 10 digits 0)
  else none

/-- `SetString` of a `big.Int`, in base ten. -/
def bigInt (s : String) : Option ℤ :=
  match s.toList with
  | '-' :: digits => (natural digits).map fun n : ℕ => -(n : ℤ)
  | '+' :: digits => (natural digits).map fun n : ℕ => (n : ℤ)
  | digits => (natural digits).map fun n : ℕ => (n : ℤ)

/-- A number that a row has, or zero where it has none. -/
def cumulative (v : Values) (k error : String) : Except String ℤ :=
  if str v k ≠ "" then orRevert (bigInt (str v k)) error else return 0

/-- The row of `feeClaimTotals` that a claim goes to. -/
def claimKey (a : Values) : String :=
  key [str a "marketId", str a "feeAsset", str a "beneficiaryType", str a "beneficiary",
    str a "beneficiaryEpoch"]

/-- What the row says. -/
def claimTotal (a : Values) (total count : ℤ) (first : String) : Values :=
  fields [("marketId", field a "marketId"), ("feeAsset", field a "feeAsset"),
    ("beneficiaryType", field a "beneficiaryType"), ("beneficiary", field a "beneficiary"),
    ("beneficiaryEpoch", field a "beneficiaryEpoch"), ("claimedAmount", .text (toString total)),
    ("claimCount", .text (toString count)), ("firstClaimEventKey", .text first),
    ("historyComplete", .flag false)]

/-- A claim of fees: it has a row of its own, and adds its amount to the total of its account,
market and asset, which also counts the claims. -/
def Stage.claim (x : Stage) (a : Values) : Except String Stage := do
  let x := x.put .feeClaims x.provenance.eventKey a
  let previous := values (x.get .feeClaimTotals (claimKey a))
  let total ← cumulative previous "claimedAmount" "invalid cumulative claimed amount"
  let count ← cumulative previous "claimCount" "invalid cumulative claim count"
  let amount ← orRevert (bigInt (str a "amount")) "invalid claim amount"
  let first := if str previous "firstClaimEventKey" = "" then x.provenance.eventKey
    else str previous "firstClaimEventKey"
  return x.put .feeClaimTotals (claimKey a) (claimTotal a (total + amount) (count + 1) first)

/-- The swap that a fee is of: the last one of the pool in the transaction that has no fee. -/
def Stage.selectSwap (o : MapOrder) (x : Stage) (poolId : String) : Option SwapRow :=
  (((o.range x.state.tables.swaps).map Prod.snd).filter fun swap =>
    swap.poolId = poolId ∧ swap.provenance.transactionHash = x.provenance.transactionHash ∧
      swap.provenance.logIndex < x.provenance.logIndex ∧ swap.hookFeeEventKey = none).argmax
    fun swap => swap.provenance.logIndex

/-- Another fee of the pool with the nonce of this one. -/
def conflicts (a : Values) (feeId : String) (v : Values) : Prop :=
  feeId ≠ key [str a "feeId"] ∧ field v "feeNonce" = field a "feeNonce" ∧
    equalFold (str v "marketId") (str a "marketId") = true ∧
    equalFold (str v "poolId") (str a "poolId") = true

instance (a : Values) (feeId : String) (v : Values) : Decidable (conflicts a feeId v) :=
  inferInstanceAs (Decidable (_ ∧ _ ∧ _ ∧ _))

/-- The fee of a pool is accrued: no other fee of the market may have its nonce, and a swap before
it in the transaction, of the same pool and not yet paired, becomes its pair. -/
def Stage.accrue (o : MapOrder) (x : Stage) (a last : Values) : Except String Stage := do
  revertIf (∃ row ∈ o.range (x.state.tables.keyed .feeCredits), conflicts a row.1 row.2.values)
    "conflicting V4 fee nonce"
  let swap ← orRevert (x.selectSwap o (key [str a "poolId"]))
    "V4 fee has no preceding unpaired Swap"
  let x := x.merge .feeCredits (key [str a "feeId"]) last
  return x.setSwap swap.eventKey { swap with
    hookFeeEventKey := some x.provenance.eventKey
    feeId := some (key [str a "feeId"]) }

/-- `stage.apply`. -/
def Stage.apply (o : MapOrder) (x : Stage) (name : EventName) (signature : String) (a : Values) :
    Except String Stage := do
  let market := str a "marketId"
  let user := str a "user"
  let gaugeKey := key [user, market]
  let last := combine a (fields [("lastEvent", .text signature)])
  x.check name a
  match name with
  | .assetRegistered => return x.config "asset" (str a "assetUid") "1" a true
  | .quoteAssetConfigAdded => return x.config "quote" (str a "configId") "1" a true
  | .tickerGardenBaselineAdded => return x.config "baseline" (str a "baselineId") "1" a true
  | .launchTemplateAdded => return x.config "template" (str a "launchTemplateId") "1" a true
  | .assetStatusChanged | .quoteAssetStatusChanged | .tickerGardenBaselineStatusChanged
  | .launchTemplateStatusChanged =>
    let (kind, id) := statusChanged name a
    return x.config kind id (str a "newStatus") (fields [("reasonHash", field a "reasonHash")])
      false
  | .assetMinimumAllocationChanged | .stockTokenFingerprintRegistered
  | .assetImplementationAccepted =>
    let id := str a "assetUid"
    let status := ((x.getConfig (key ["asset", id])).map ConfigRow.status).getD ""
    let status := if status = "" then "1" else status
    if name = .assetMinimumAllocationChanged then
      return x.config "asset" id status (fields [("minimumAllocation", field a "newMinimum"),
        ("minimumAllocationReasonHash", field a "reasonHash")]) false
    else
      let patch := if name = .assetImplementationAccepted then
        combine a (fields [("implementation", field a "newImplementation"),
          ("implementationRuntimeCodeHash", field a "newImplementationRuntimeCodeHash")])
        else a
      return (x.merge .observations (key ["assetIdentity", id]) a).config "asset" id status patch
        false
  | .quoteAssetIdentityPinned | .stockQuoteConfigBound =>
    let id := str a "configId"
    let old ← orRevert ((x.getConfig (key ["quote", id])).filter fun old =>
      equalFold (str old.values "quoteAsset") (str a "quoteAsset"))
      "unknown or mismatched quote identity"
    let patch := if name = .quoteAssetIdentityPinned then
      fields [("quoteAsset", field a "quoteAsset"), ("runtimeCodeHash", field a "runtimeCodeHash")]
      else a
    return x.config "quote" id old.status patch false
  | .marketCreated | .marketRegistered => return x.market market a
  | .launchPhaseChanged =>
    return x.market market (fields [("launchPhase", field a "newPhase"),
      ("poolId", field a "poolId"), ("sourceVersion", field a "sourceVersion")])
  | .creatorRevenueEpochInitialized =>
    return x.market market (fields [("creatorEpoch", field a "epoch"),
      ("creatorBeneficiary", field a "beneficiary")])
  | .creatorRevenueBeneficiaryUpdated =>
    return x.market market (fields [("creatorEpoch", field a "newEpoch"),
      ("creatorBeneficiary", field a "newBeneficiary")])
  | .curveBuy | .curveSell | .curveBuyRefunded =>
    let id ← x.curveMarket o x.provenance.emitter
    return x.put .curveTrades x.provenance.eventKey (combine a (fields [("marketId", .text id)]))
  | .curveFeeTransferred => return x.put .curveTrades x.provenance.eventKey a
  | .curveCompleted =>
    return (x.put .curveTrades x.provenance.eventKey a).market market
      (fields [("curveCompleted", .flag true)])
  | .expectedPoolRegistered | .poolBindingActivated | .poolGraduated =>
    let x := x.merge .pools (key [str a "poolId"]) a
    let x := x.put .poolEvents x.provenance.eventKey a
    return x.market market (fields [("poolId", field a "poolId"), ("poolEvent", .text signature)])
  | .donate => return x.put .poolEvents x.provenance.eventKey a
  | .stockDeposited | .stockWithdrawn =>
    return x.merge .stockPositions (key [str a "assetUid", user]) last
  | .allocationLocked | .allocationReleased | .allocationRageQuit =>
    return x.merge .allocations (key [str a "assetUid", user, market]) last
  | .allocationRageQuitExecuted | .gaugeRageQuit =>
    return x.merge .gaugePositions gaugeKey (combine last (fields [("redistributed", .flag false),
      ("forfeitureDestination", .text "platform_forfeiture_reserve")]))
  | .rageQuitRewardSettlementQueued | .rageQuitRewardSettlementCompleted
  | .rageQuitRewardSettlementDeferred | .rageQuitRewardSettlementFinalized =>
    let patch := combine last (settlementPatch name a)
    let x := x.merge .gaugePositions gaugeKey patch
    if name = .rageQuitRewardSettlementQueued ∨ name = .rageQuitRewardSettlementCompleted then
      return x.merge .allocations (key [str a "assetUid", user, market]) patch
    else return x.allocationForGauge user market patch
  | .pendingScheduled | .pendingRescheduled | .pendingMaterialized =>
    return x.merge .gaugePositions gaugeKey last
  | .rewardConverted =>
    if str a "creatorEpoch" = "0" then
      return x.merge .gaugePositions gaugeKey
        (combine last (fields [("conversionType", .text "staker")]))
    else return x
  | .rawRewardExitRequested =>
    return x.merge .rewardExits gaugeKey (combine last (fields
      [("rawRewardExitRequested", .flag true), ("rawRewardExitStatus", .text "requested")]))
  | .rawRewardExitCancelled =>
    return x.merge .rewardExits gaugeKey (combine last (fields [("availableAt", .text "0"),
      ("rawRewardExitRequested", .flag false), ("rawRewardExitStatus", .text "cancelled")]))
  | .forfeitureRecordDeferred =>
    let x := x.merge .gaugePositions gaugeKey
      (combine last (fields [("forfeitureReserveAccountingPending", .flag true)]))
    return x.market market (fields [("deferredForfeitureQuote", field a "totalDeferredQuote"),
      ("deferredForfeitureMeme", field a "totalDeferredMeme"),
      ("forfeitureReserveAccountingPending", .flag true)])
  | .forfeitureRecordFlushed =>
    return x.market market (fields [("deferredForfeitureQuote", .text "0"),
      ("deferredForfeitureMeme", .text "0"),
      ("lastFlushedForfeitureQuote", field a "quoteAmount"),
      ("lastFlushedForfeitureMeme", field a "memeAmount"),
      ("forfeitureReserveAccountingPending", .flag false)])
  | .activationBucketProcessed =>
    return x.put .activationBuckets (key [market, str a "generation"]) a
  | .stakerFeeCredited | .feeBucketsCredited | .curveFeesSwept =>
    return x.merge .feeCredits (key [str a "feeId"]) last
  | .forfeitureReserved =>
    return x.merge .feeCredits (key ["forfeiture-reserve", market, str a "feeAsset"]) last
  | .forfeitureReserveConverted =>
    return x.merge .feeCredits (key ["forfeiture-reserve", market, str a "feeAsset"])
      (combine last (fields [("reserveBalance", .text "0")]))
  | .feeClaimed => x.claim a
  | .swap =>
    let at' := x.provenance
    return x.setSwap at'.eventKey ⟨at'.eventKey, key [str a "id"], a, at', none, none⟩
  | .v4FeeAccrued => x.accrue o a last
  | .other => return x

/-! ### Observations -/

/-- The kinds of things that may be observed. -/
def observationKinds : List String :=
  ["asset", "assetIdentity", "quote", "baseline", "template", "market", "poolKey", "curve",
    "vaultPosition", "vaultSolvency", "gaugePosition", "liability"]

/-- What an observation says of the other tables. -/
def Stage.hydrate (kind k : String) (v : Values) (x : Stage) : Except String Stage :=
  if kind = "market" then return x.market k v
  else if kind = "poolKey" then return x.put .pools (key [k]) v
  else if kind = "vaultPosition" then return x.put .stockPositions (key [k]) v
  else if kind = "gaugePosition" then return x.put .gaugePositions (key [k]) v
  else if kind ∈ ["asset", "assetIdentity", "quote", "baseline", "template"] then do
    let kind := if kind = "assetIdentity" then "asset" else kind
    let old ← orRevert (x.getConfig (key [kind, k])) "cannot hydrate unknown configuration"
    return x.config kind k old.status v false
  else return x

/-- An observation is kept under its kind and key, and is carried into the row it is about. -/
def Stage.observe (x : Stage) (o : Observation) : Except String Stage := do
  revertIf (o.kind ∉ observationKinds ∨ o.key = "") "invalid chain observation scope"
  let v ← orRevert o.value "invalid chain observation scope"
  (x.put .observations (key [o.kind, o.key]) v).hydrate o.kind o.key v

/-! ### Apply -/

/-- Whether a character is a digit in hexadecimal, of either case. -/
def isHex (c : Char) : Bool :=
  c.isDigit || decide ('a' ≤ c ∧ c ≤ 'f') || decide ('A' ≤ c ∧ c ≤ 'F')

/-- The number that some digits in hexadecimal write. -/
def hexValue (digits : List Char) : ℕ :=
  digits.foldl (fun n c =>
    16 * n + if c.isDigit then c.toNat - '0'.toNat else c.toLower.toNat - 'a'.toNat + 10) 0

/-- `chainrpc.Quantity`. -/
def quantity (s : String) : Except String ℕ :=
  match s.toList with
  | '0' :: 'x' :: d :: digits => do
    revertIf (d = '0' ∧ digits ≠ []) "invalid RPC quantity"
    revertIf ((d :: digits).all isHex = false ∨ 2 ^ 63 - 1 < hexValue (d :: digits))
      "RPC quantity exceeds supported range"
    return hexValue (d :: digits)
  | _ => .error "invalid RPC quantity"

/-- An index of a log, or of a transaction. -/
def index (s error : String) : Except String ℕ :=
  match quantity s with
  | .ok n => do
    revertIf (2 ^ 53 - 1 < n) error
    return n
  | .error _ => .error error

/-- `^0x[0-9a-fA-F]{64}$`. -/
def isHash (s : String) : Bool :=
  match s.toList with
  | '0' :: 'x' :: digits => digits.length = 64 && digits.all isHex
  | _ => false

/-- The observations of an input, after a passage through JSON if there are any. -/
def observationsOf (c : Codec) (input : Input) : Except String (List Observation) :=
  if input.observations.isEmpty then .ok [] else c.normalize input.observations

/-- The event of an input, with its position and its observations. -/
def parse (c : Codec) (input : Input) : Except String Body := do
  let log := input.log
  let n ← quantity log.blockNumber
  let ti ← index log.transactionIndex "invalid projection transaction index"
  let li ← index log.logIndex "invalid projection log index"
  revertIf (isHash log.blockHash = false ∨ isHash log.transactionHash = false)
    "invalid projection block/transaction hash"
  let decoded ← c.decode input.module log
  let observations ← observationsOf c input
  return {
    module := input.module
    provenance := {
      chainId := input.chainId
      blockNumber := n
      blockHash := lower log.blockHash
      transactionHash := lower log.transactionHash
      transactionIndex := ti
      logIndex := li
      emitter := decoded.emitter
      eventKey := key [toString input.chainId, log.transactionHash, toString li] }
    signature := decoded.signature
    args := decoded.args
    observations := observations }

/-- An event comes behind the last one, on its chain and with the hash of its block. -/
def State.follows (s : State) (at' : Provenance) : Except String Unit :=
  match s.last with
  | none => return ()
  | some last => revertIf (last.chainId ≠ at'.chainId ∨ at'.blockNumber < last.blockNumber ∨
      (at'.blockNumber = last.blockNumber ∧ (last.blockHash ≠ at'.blockHash ∨
        at'.transactionIndex < last.transactionIndex ∨ at'.logIndex ≤ last.logIndex)))
      "out-of-order or conflicting projection block"

/-- Everything that an event changes. -/
def Stage.run (o : MapOrder) (x : Stage) (b : Body) : Except String Stage := do
  let x ← x.apply o (nameOf b.signature) b.signature b.args
  let x ← b.observations.foldlM Stage.observe x
  return x.setEvent b.provenance.eventKey ⟨b.provenance, b.signature, b.args⟩

/-- What an event changed is put over the tables, and the event becomes the last one, with its
fingerprint. -/
def State.commit (s : State) (b : Body) (changes : Tables) (fingerprint : String) : State where
  tables := changes.onto s.tables
  last := some b.provenance
  fingerprints := s.fingerprints.insert b.provenance.eventKey fingerprint
  changes := some changes

/-- What a call of `Apply` has done, if it has not failed. -/
inductive Outcome
  | applied
  | duplicate
deriving DecidableEq

/-- `Apply`, of an input on a supported chain. -/
def State.accept (c : Codec) (o : MapOrder) (s : State) (input : Input) :
    Except String (Outcome × State) := do
  let b ← parse c input
  match s.fingerprints.lookup b.provenance.eventKey with
  | some prior =>
    revertIf (prior ≠ c.marshal b) "conflicting duplicate projection event"
    return (.duplicate, s)
  | none =>
    s.follows b.provenance
    let x ← Stage.run o ⟨s, .empty, b.provenance⟩ b
    return (.applied, s.commit b x.changes (c.marshal b))

/-- `Apply`. What was changed by the call before is forgotten, unless the chain is not one of
those that are projected. -/
def State.apply (c : Codec) (o : MapOrder) (s : State) (input : Input) :
    Except String Outcome × State :=
  if input.chainId ≠ 4663 ∧ input.chainId ≠ 46630 ∧ input.chainId ≠ 421614 then
    (.error "unsupported projection chain", s)
  else
    let s := { s with changes := none }
    match s.accept c o input with
    | .ok (outcome, t) => (.ok outcome, t)
    | .error e => (.error e, s)

/-- `Replay`. Every call has an order of its own in which it goes through a map. -/
def replay (c : Codec) (inputs : List (MapOrder × Input)) : Except String State :=
  inputs.foldlM (fun s i => match s.apply c i.1 i.2 with
    | (.ok _, t) => .ok t
    | (.error e, _) => .error e) State.new

end EventProjection

end Backend

end TickerGarden
