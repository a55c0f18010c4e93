import TickerGarden.Backend.FeeCredits
import TickerGarden.Backend.PoolTrades
import TickerGarden.Lib.Rollup
import TickerGarden.Lib.Transition

/-!
# Display statistics

What the worker of the confirmed display keeps of trades, fees and stakes: a **flow** for
each trade and each credit, with its time, and the **position** of each account in an asset.
Triggers keep their sums: a bucket for each minute, a total for each asset, and in how many
assets an account has something. A batch of events is applied, or undone after a reorg; the
tables are filled again from the stored history when the worker starts, and what is old is
deleted.

The statistics of a window are read off the buckets of its whole minutes, and off the flows
before the first of them and after the last one. `TickerGarden.Backend.StatsDisplay.stats_sums`
says that this is the sum over the flows of the window, in every reachable state.

All rows belong to a deployment; the tables here are those of one. The table of the markets,
which a batch does not write, and the snapshot that is published of all of them are left out.
-/

namespace TickerGarden

open Checked

namespace Backend

namespace StatsDisplay

open Analytics (PooledBinding TradeActivity normalizeTransaction)
open Rollup

/-! ### The tables -/

/-- `kind`. -/
inductive FlowKind
  | volume
  | fee
  | unknown
  | allocation
deriving DecidableEq

/-- `event_key`: of a trade, by its chain, and of a credit, by its block. -/
inductive EventKey
  | trade (key : ℕ × Bytes32 × ℕ)
  | credit (blockHash transactionHash : Bytes32) (logIndex : ℕ)
deriving DecidableEq

/-- What the sums are taken by: the kind, the asset, and the recipient, which only an
allocation has. -/
structure Group where
  kind : FlowKind
  asset : Address
  recipient : Option FeeRecipient
deriving DecidableEq

/-- A row of `stats_display_flows` without its key. -/
structure FlowRow where
  block : ℕ
  occurredAt : ℕ
  amount : ℕ
deriving DecidableEq

/-- The key of a flow. -/
abbrev FlowKey := EventKey × Group

/-- An asset and an account. -/
abbrev PositionKey := Bytes32 × Address

/-- The tables of the statistics: the flows, the minutes they fall into, and what is kept of the
latest ones. -/
structure Tables where
  /-- `stats_display_flows`. -/
  flows : Table FlowKey FlowRow
  /-- `stats_display_buckets`, by minute. -/
  buckets : Table (ℕ × Group) ℤ
  /-- `stats_display_positions`. -/
  positions : Table PositionKey ℕ
  /-- `stats_display_stock_totals`. -/
  stockTotals : Table Bytes32 ℤ
  /-- `stats_display_wallet_refs`. -/
  walletRefs : Table Address ℤ

/-- Tables without rows. -/
def Tables.empty : Tables where
  flows := ∅
  buckets := ∅
  positions := ∅
  stockTotals := ∅
  walletRefs := ∅

/-! ### The triggers -/

/-- `occurred_at/60*60`, with the columns of the group. -/
def bucketOf (k : FlowKey) (f : FlowRow) : ℕ × Group := (f.occurredAt / 60 * 60, k.2)

/-- `stats_display_flow_delta`. -/
def statsDisplayFlowDelta (op : Operation) (buckets : Table (ℕ × Group) ℤ)
    (old new : List (FlowKey × FlowRow)) : Table (ℕ × Group) ℤ :=
  let amounts (rows : List (FlowKey × FlowRow)) :=
    grouped (rows.map fun r => (bucketOf r.1 r.2, (r.2.amount : ℤ)))
  match op with
  | .delete => addAll buckets ((amounts old).map fun d => (d.1, -d.2))
  | _ => addAll buckets (amounts new)

/-- A statement on the flows, with its trigger. -/
def writeFlows (t : Tables) (w : Write t.flows) : Tables :=
  { t with flows := w.apply, buckets := statsDisplayFlowDelta w.op t.buckets w.old w.new }

/-- What a position counts as a reference. -/
def positiveRef (amount : ℕ) : ℤ := if 0 < amount then 1 else 0

/-- `stats_display_position_delta`, of a row. -/
def statsDisplayPositionDelta (t : Tables) (key : PositionKey) (old new : Option ℕ) : Tables :=
  let t := match old with
    | none => t
    | some amount => { t with
        stockTotals := subtract t.stockTotals (key.1, amount)
        walletRefs := subtract t.walletRefs (key.2, positiveRef amount) }
  match new with
  | none => t
  | some amount => { t with
      stockTotals := add t.stockTotals (key.1, amount)
      walletRefs := add t.walletRefs (key.2, positiveRef amount) }

/-- `position`: a row is inserted, or updated where there is one. -/
def position (t : Tables) (key : PositionKey) (amount : ℕ) : Tables :=
  statsDisplayPositionDelta { t with positions := t.positions.insert key amount } key
    (t.positions.lookup key) (some amount)

/-- A row is deleted, if there is one. -/
def deletePosition (t : Tables) (key : PositionKey) : Tables :=
  statsDisplayPositionDelta { t with positions := t.positions.erase key } key
    (t.positions.lookup key) none

/-! ### Flows -/

/-- A flow, as it is read of an event. -/
structure Flow where
  key : EventKey
  block : ℕ
  at_ : ℕ
  kind : FlowKind
  asset : Address
  recipient : Option FeeRecipient
  amount : ℤ

/-- The row of a flow. -/
def Flow.row (f : Flow) : FlowKey × FlowRow :=
  ((f.key, ⟨f.kind, f.asset, f.recipient⟩), ⟨f.block, f.at_, f.amount.toNat⟩)

/-- `tradeFlows`. -/
def tradeFlows (t : TradeActivity) : List Flow :=
  let common (kind : FlowKind) (asset : Address) (amount : ℤ) : Flow :=
    { key := .trade t.source.eventKey, block := t.source.blockNumber, at_ := t.timestamp, kind,
      asset, recipient := none, amount }
  (if t.classification = .unclassified then [common .volume t.quoteAsset t.quoteRaw] else []) ++
    match t.feeRaw, t.feeAsset with
    | some feeRaw, some feeAsset => [common .fee feeAsset (feeRaw + t.taxRaw.getD 0)]
    | _, _ => [common .unknown t.quoteAsset 1]

/-- The flow of a credit. -/
def creditFlow (o : EventObservation) (f : FeeTotal) : Flow where
  key := .credit f.blockHash f.transactionHash f.logIndex
  block := o.event.log.blockNumber
  at_ := o.timestamp
  kind := .allocation
  asset := f.asset
  recipient := some f.recipient
  amount := f.amountRaw

/-- `insertFlows`, with the check of the column. -/
def insertFlows (t : Tables) (rows : List Flow) : Except JsError Tables := do
  throwIf (∃ r ∈ rows, r.amount < 0)
    "new row for relation \"stats_display_flows\" violates check constraint \"stats_display_flows_amount_check\""
  return writeFlows t (Write.doNothing t.flows (rows.map Flow.row))

/-! ### Batches -/

/-- `StatsUndo`: the amounts that positions had before. -/
abbrev StatsUndo := List (PositionKey × Option ℕ)

/-- The observations by transaction, in the order the transactions appear in. -/
def transactions (observations : List EventObservation) : List (List EventObservation) :=
  (observations.map fun o => o.event.log.transactionHash).eraseDups.map fun hash =>
    observations.filter fun o => decide (o.event.log.transactionHash = hash)

/-- What an event of the vault at its address says an account has allocated of an asset. -/
def allocated (vault : Address) (event : DecodedProtocolEvent) :
    Except JsError (Option (PositionKey × ℕ)) :=
  if event.module = .userStockVault ∧ event.log.address = vault ∧
      (event.eventName = .allocationLocked ∨ event.eventName = .allocationReleased) then do
    let asset ← hex32 (event.args .assetUid)
    let account ← storedAddress (event.args .user)
    let amount ← bigint (event.args .userTotalAllocated)
    return some ((asset, account), amount)
  else .ok none

/-- What the loop over the observations carries. -/
structure Progress where
  tables : Tables
  flows : List Flow
  undo : StatsUndo

/-- The loop over the observations, one of them. -/
def observe (vault : Address) (p : Progress) (o : EventObservation) : Except JsError Progress := do
  let credits ← feeCredits o.event
  let flows := p.flows ++ credits.map (creditFlow o)
  match ← allocated vault o.event with
  | none => return { p with flows }
  | some (key, amount) =>
    let undo := if key ∈ p.undo.map Prod.fst then p.undo
      else p.undo ++ [(key, p.tables.positions.lookup key)]
    return { tables := position p.tables key amount, flows, undo }

/-- **`applyStatsEvents`**, with the bindings of the markets and the addresses of the vaults. -/
def applyStatsEvents (feeVault vault : Address) (t : Tables) (observations : List EventObservation)
    (bindings : List PooledBinding) : Except JsError (Tables × StatsUndo) := do
  let trades ← (transactions observations).mapM fun group =>
    normalizeTransaction feeVault group bindings
  let p ← observations.foldlM (observe vault) ⟨t, trades.flatten.flatMap tradeFlows, []⟩
  let t ← insertFlows p.tables p.flows
  return (t, p.undo)

/-- One position as it was before. -/
def undoPosition (t : Tables) (e : PositionKey × Option ℕ) : Tables :=
  match e.2 with
  | none => deletePosition t e.1
  | some amount => position t e.1 amount

/-- **`undoStatsEvents`.** -/
def undoStatsEvents (t : Tables) (previousBlock : ℕ) (undo : StatsUndo) : Tables :=
  undo.foldl undoPosition
    (writeFlows t (Write.delete t.flows fun _ f => decide (previousBlock < f.block)))

/-! ### The stored history -/

/-- `seedStats`: of the stored trades, in pages, the stored credits and the last position of
each account. -/
def seedStats (t : Tables) (pages : List (List TradeActivity)) (credits : List Flow)
    (positions : List (PositionKey × ℕ)) : Except JsError Tables := do
  let t := writeFlows t (Write.delete t.flows fun _ _ => true)
  let t := t.positions.keys.foldl deletePosition { t with buckets := ∅ }
  let t ← pages.foldlM (fun t page => insertFlows t (page.flatMap tradeFlows)) t
  let t ← insertFlows t credits
  return positions.foldl (fun t e => position t e.1 e.2) t

/-- What the worker deletes: the flows of finalized blocks that no window reaches, and the
buckets among them that are zero. -/
def prune (t : Tables) (finalizedNumber finalizedTimestamp : ℕ) : Tables :=
  let before := finalizedTimestamp - 2 * 86400
  let t := writeFlows t (Write.delete t.flows fun _ f =>
    decide (f.block ≤ finalizedNumber ∧ f.occurredAt < before))
  { t with buckets := Table.restrict (fun g => ¬(g.1 < before ∧ amount t.buckets g = 0)) t.buckets }

/-- **One step** of the worker. A batch that is undone is any one. -/
inductive Step (feeVault vault : Address) : Tables → Unit → Tables → Prop
  | applied {t t' : Tables} (observations : List EventObservation) (bindings : List PooledBinding)
    {undo : StatsUndo} (h : applyStatsEvents feeVault vault t observations bindings = .ok (t', undo)) :
    Step feeVault vault t () t'
  | undone (t : Tables) (previousBlock : ℕ) (undo : StatsUndo) :
    Step feeVault vault t () (undoStatsEvents t previousBlock undo)
  | seeded {t t' : Tables} (pages : List (List TradeActivity)) (credits : List Flow)
    (positions : List (PositionKey × ℕ)) (h : seedStats t pages credits positions = .ok t') :
    Step feeVault vault t () t'
  | pruned (t : Tables) (finalizedNumber finalizedTimestamp : ℕ) :
    Step feeVault vault t () (prune t finalizedNumber finalizedTimestamp)

/-- The states a run leads to. -/
def Reachable (feeVault vault : Address) : Tables → Prop :=
  Transition.Reachable (Step feeVault vault) fun t => t = .empty

/-! ### The window -/

/-- `flowRows`: the whole minutes of the window from their buckets, and the two fragments at
its ends from the flows. The window has both its ends. -/
def flowRows (t : Tables) (start stop : ℕ) : List (Group × ℤ) :=
  let low := (start + 59) / 60 * 60
  let high := stop / 60 * 60
  let minutes := (t.buckets.entries.filter fun e => decide (low ≤ e.1.1 ∧ e.1.1 < high)).map
    fun e => (e.1.2, e.2)
  let fragments := (t.flows.entries.filter fun e => decide ((start ≤ e.2.occurredAt ∧
    e.2.occurredAt ≤ stop) ∧ (e.2.occurredAt < low ∨ high ≤ e.2.occurredAt))).map
    fun e => (e.1.2, (e.2.amount : ℤ))
  grouped (minutes ++ fragments)

/-- The sum of the flows that are as a condition says. -/
def flowSum (t : Tables) (p : FlowKey → FlowRow → Prop) [∀ k f, Decidable (p k f)] : ℤ :=
  total (fun k f => if p k f then (f.amount : ℤ) else 0) t.flows

/-- **The sums are exact**: of the buckets, the stock totals and the references of the
wallets, and of every window. -/
structure Sums (t : Tables) : Prop where
  buckets : ∀ minute group, amount t.buckets (minute, group)
    = flowSum t fun k f => f.occurredAt / 60 * 60 = minute ∧ k.2 = group
  stockTotals : ∀ asset, amount t.stockTotals asset
    = total (fun (k : PositionKey) (n : ℕ) => if k.1 = asset then (n : ℤ) else 0) t.positions
  walletRefs : ∀ account, amount t.walletRefs account
    = t.positions.entries.countP fun e => decide (e.1.2 = account ∧ 0 < e.2)
  window : ∀ start stop group, sumOf (flowRows t start stop) group
    = flowSum t fun k f => (start ≤ f.occurredAt ∧ f.occurredAt ≤ stop) ∧ k.2 = group

/-! ### The sums follow the rows -/

/-- **The tables are sound**: the triggers have kept up. -/
structure Sound (t : Tables) : Prop where
  buckets : ∀ g, amount t.buckets g
    = total (fun k f => if bucketOf k f = g then (f.amount : ℤ) else 0) t.flows
  stock : Tracks t.stockTotals Prod.fst (fun n : ℕ => (n : ℤ)) t.positions
  wallets : Tracks t.walletRefs Prod.snd positiveRef t.positions

section Steps

variable {t t' : Tables} {feeVault vault : Address}

/-- **Flows are inserted or deleted.** -/
theorem Sound.writeFlows (h : Sound t) (w : Write t.flows) (hop : w.op ≠ .update) :
    Sound (StatsDisplay.writeFlows t w) := by
  refine ⟨fun g => ?_, h.stock, h.wallets⟩
  have htotal := w.total_apply fun k f => if bucketOf k f = g then (f.amount : ℤ) else 0
  have hrows := fun rows : List (FlowKey × FlowRow) =>
    sumOf_rows (g := g) bucketOf (fun _ f => (f.amount : ℤ)) rows
  change amount (statsDisplayFlowDelta w.op t.buckets w.old w.new) g = total _ w.apply
  cases hw : w.op with
  | insert =>
    show amount (addAll t.buckets
      (grouped (w.new.map fun r => (bucketOf r.1 r.2, (r.2.amount : ℤ))))) g = _
    rw [w.inserts hw, sumRows_nil, add_zero] at htotal
    rw [amount_addAll, sumOf_grouped, h.buckets, hrows, htotal]
  | update => exact absurd hw hop
  | delete =>
    show amount (addAll t.buckets ((grouped
      (w.old.map fun r => (bucketOf r.1 r.2, (r.2.amount : ℤ)))).map fun d => (d.1, -d.2))) g = _
    rw [w.deletes hw, sumRows_nil, add_zero] at htotal
    rw [amount_addAll, sumOf_neg, sumOf_grouped, h.buckets, hrows, ← htotal, add_neg_cancel_right]

theorem position_eq (t : Tables) (key : PositionKey) (n : ℕ) :
    StatsDisplay.position t key n = { t with
      positions := t.positions.insert key n
      stockTotals := add ((t.positions.lookup key).elim t.stockTotals
        fun old => subtract t.stockTotals (key.1, (old : ℤ))) (key.1, (n : ℤ))
      walletRefs := add ((t.positions.lookup key).elim t.walletRefs
        fun old => subtract t.walletRefs (key.2, positiveRef old)) (key.2, positiveRef n) } := by
  rw [StatsDisplay.position]
  cases t.positions.lookup key with
  | none => rfl
  | some old => rfl

theorem deletePosition_eq (t : Tables) (key : PositionKey) :
    StatsDisplay.deletePosition t key = { t with
      positions := t.positions.erase key
      stockTotals := (t.positions.lookup key).elim t.stockTotals
        fun old => subtract t.stockTotals (key.1, (old : ℤ))
      walletRefs := (t.positions.lookup key).elim t.walletRefs
        fun old => subtract t.walletRefs (key.2, positiveRef old) } := by
  rw [StatsDisplay.deletePosition]
  cases t.positions.lookup key with
  | none => rfl
  | some old => rfl

/-- **A position is written.** -/
theorem Sound.position (h : Sound t) (key : PositionKey) (n : ℕ) :
    Sound (StatsDisplay.position t key n) := by
  rw [position_eq]
  exact ⟨h.buckets, h.stock.insert key n, h.wallets.insert key n⟩

/-- **A position is deleted.** -/
theorem Sound.deletePosition (h : Sound t) (key : PositionKey) :
    Sound (StatsDisplay.deletePosition t key) := by
  rw [deletePosition_eq]
  exact ⟨h.buckets, h.stock.erase key, h.wallets.erase key⟩

/-- What every step of a loop keeps, the loop keeps. -/
theorem Sound.foldl {α : Type} {f : Tables → α → Tables} (hf : ∀ t a, Sound t → Sound (f t a))
    (h : Sound t) (l : List α) : Sound (l.foldl f t) := by
  induction l generalizing t with
  | nil => exact h
  | cons a l ih => exact ih (hf t a h)

theorem Sound.insertFlows (h : Sound t) {rows : List Flow}
    (hok : StatsDisplay.insertFlows t rows = .ok t') : Sound t' := by
  rw [StatsDisplay.insertFlows] at hok
  obtain ⟨-, -, hok⟩ := bind_eq_ok.mp hok
  cases hok
  exact h.writeFlows _ fun hc => nomatch hc

theorem Sound.foldlM_insertFlows (h : Sound t) {pages : List (List TradeActivity)}
    (hok : pages.foldlM (fun t page => StatsDisplay.insertFlows t (page.flatMap tradeFlows)) t
      = .ok t') : Sound t' := by
  induction pages generalizing t with
  | nil =>
    cases hok
    exact h
  | cons page pages ih =>
    rw [List.foldlM_cons] at hok
    obtain ⟨t₁, hfirst, hrest⟩ := bind_eq_ok.mp hok
    exact ih (h.insertFlows hfirst) hrest

/-- What an observation does to the tables: nothing, or a position is written. -/
theorem observe_eq_ok {p p' : Progress} {o : EventObservation} (hok : observe vault p o = .ok p') :
    (∃ flows, p' = { p with flows }) ∨ ∃ key n flows, p' = ⟨StatsDisplay.position p.tables key n, flows,
      if key ∈ p.undo.map Prod.fst then p.undo else p.undo ++ [(key, p.tables.positions.lookup key)]⟩ := by
  rw [observe] at hok
  obtain ⟨credits, -, hok⟩ := bind_eq_ok.mp hok
  obtain ⟨a, -, hok⟩ := bind_eq_ok.mp hok
  cases a with
  | none =>
    cases hok
    exact Or.inl ⟨_, rfl⟩
  | some e =>
    cases hok
    exact Or.inr ⟨e.1, e.2, _, rfl⟩

theorem Sound.foldlM_observe {p p' : Progress} (h : Sound p.tables)
    {observations : List EventObservation}
    (hok : observations.foldlM (observe vault) p = .ok p') : Sound p'.tables := by
  induction observations generalizing p with
  | nil =>
    cases hok
    exact h
  | cons o observations ih =>
    rw [List.foldlM_cons] at hok
    obtain ⟨p₁, hfirst, hrest⟩ := bind_eq_ok.mp hok
    refine ih ?_ hrest
    rcases observe_eq_ok hfirst with ⟨flows, rfl⟩ | ⟨key, n, flows, rfl⟩
    · exact h
    · exact h.position key n

/-- **A batch is applied.** -/
theorem Sound.applyStatsEvents (h : Sound t) {observations : List EventObservation}
    {bindings : List PooledBinding} {undo : StatsUndo}
    (hok : StatsDisplay.applyStatsEvents feeVault vault t observations bindings = .ok (t', undo)) :
    Sound t' := by
  rw [StatsDisplay.applyStatsEvents] at hok
  obtain ⟨trades, -, hok⟩ := bind_eq_ok.mp hok
  obtain ⟨p, hp, hok⟩ := bind_eq_ok.mp hok
  obtain ⟨t₁, ht₁, hok⟩ := bind_eq_ok.mp hok
  cases hok
  have hsound : Sound p.tables := Sound.foldlM_observe h hp
  exact hsound.insertFlows ht₁

theorem Sound.undoPosition (h : Sound t) (e : PositionKey × Option ℕ) :
    Sound (StatsDisplay.undoPosition t e) := by
  obtain ⟨key, old⟩ := e
  cases old with
  | none => exact h.deletePosition key
  | some n => exact h.position key n

/-- **A batch is undone.** -/
theorem Sound.undoStatsEvents (h : Sound t) (previousBlock : ℕ) (undo : StatsUndo) :
    Sound (StatsDisplay.undoStatsEvents t previousBlock undo) := by
  have hflows := h.writeFlows (Write.delete t.flows fun _ f => decide (previousBlock < f.block))
    fun hc => nomatch hc
  exact Sound.foldl (fun _ e h => h.undoPosition e) hflows undo

/-- **The tables are filled again.** The buckets are emptied when no flow is left. -/
theorem Sound.seedStats (h : Sound t) {pages : List (List TradeActivity)} {credits : List Flow}
    {positions : List (PositionKey × ℕ)}
    (hok : StatsDisplay.seedStats t pages credits positions = .ok t') : Sound t' := by
  rw [StatsDisplay.seedStats] at hok
  obtain ⟨t₁, ht₁, hok⟩ := bind_eq_ok.mp hok
  obtain ⟨t₂, ht₂, hok⟩ := bind_eq_ok.mp hok
  cases hok
  have hflows := h.writeFlows (Write.delete t.flows fun _ _ => true) fun hc => nomatch hc
  have hnone : ∀ k, (Write.delete t.flows fun _ _ => true).apply.lookup k = none := fun k => by
    rw [Write.lookup_delete]
    cases t.flows.lookup k <;> rfl
  have hempty : Sound { StatsDisplay.writeFlows t (Write.delete t.flows fun _ _ => true) with
      buckets := ∅ } := by
    refine ⟨fun g => ?_, hflows.stock, hflows.wallets⟩
    have hzero : total (fun k f => if bucketOf k f = g then (f.amount : ℤ) else 0)
        (Write.delete t.flows fun _ _ => true).apply
        = total (fun k f => if bucketOf k f = g then (f.amount : ℤ) else 0)
          (∅ : Table FlowKey FlowRow) :=
      total_eq hnone
    exact hzero.symm
  have hpages := Sound.foldlM_insertFlows
    (Sound.foldl (fun _ key h => h.deletePosition key) hempty _) ht₁
  exact Sound.foldl (fun _ e h => h.position e.1 e.2) (hpages.insertFlows ht₂) positions

/-- **What is old is deleted.** -/
theorem Sound.prune (h : Sound t) (finalizedNumber finalizedTimestamp : ℕ) :
    Sound (StatsDisplay.prune t finalizedNumber finalizedTimestamp) := by
  have hflows := h.writeFlows (Write.delete t.flows fun _ f =>
    decide (f.block ≤ finalizedNumber ∧ f.occurredAt < finalizedTimestamp - 2 * 86400))
    fun hc => nomatch hc
  refine ⟨fun g => Eq.trans ?_ (hflows.buckets g), hflows.stock, hflows.wallets⟩
  -- a bucket that is deleted was zero
  rw [StatsDisplay.prune]
  dsimp only
  rw [amount, Table.lookup_restrict]
  split
  · rfl
  · rename_i hzero
    exact (not_not.mp hzero).2.symm

/-- **The tables of every reachable state are sound.** -/
theorem sound_of_reachable (h : Reachable feeVault vault t) : Sound t := by
  refine Transition.Reachable.invariant ?_ ?_ h
  · rintro t rfl
    exact ⟨fun _ => rfl, Tracks.empty, Tracks.empty⟩
  · rintro t ⟨⟩ t' hsound hstep
    cases hstep with
    | applied observations bindings hok => exact hsound.applyStatsEvents hok
    | undone previousBlock undo => exact hsound.undoStatsEvents previousBlock undo
    | seeded pages credits positions hok => exact hsound.seedStats hok
    | pruned finalizedNumber finalizedTimestamp => exact hsound.prune _ _

/-- **Every window is the sum of its flows.** -/
theorem Sound.window (h : Sound t) (start stop : ℕ) (group : Group) :
    sumOf (flowRows t start stop) group
      = flowSum t fun k f => (start ≤ f.occurredAt ∧ f.occurredAt ≤ stop) ∧ k.2 = group := by
  let low := (start + 59) / 60 * 60
  let high := stop / 60 * 60
  have hminutes : total (fun (g : ℕ × Group) x => if (low ≤ g.1 ∧ g.1 < high) ∧ g.2 = group then x else 0)
      t.buckets = total (fun k f => if (low ≤ (bucketOf k f).1 ∧ (bucketOf k f).1 < high) ∧
        (bucketOf k f).2 = group then (f.amount : ℤ) else 0) t.flows :=
    total_groups (fun g : ℕ × Group => (low ≤ g.1 ∧ g.1 < high) ∧ g.2 = group) h.buckets
  rw [flowRows, sumOf_grouped, sumOf_append,
    sumOf_entries (fun (g : ℕ × Group) (_ : ℤ) => low ≤ g.1 ∧ g.1 < high) (fun g _ => g.2) (fun _ x => x),
    sumOf_entries (fun (_ : FlowKey) (f : FlowRow) => (start ≤ f.occurredAt ∧ f.occurredAt ≤ stop) ∧
      (f.occurredAt < low ∨ high ≤ f.occurredAt)) (fun k _ => k.2) (fun _ f => (f.amount : ℤ)),
    hminutes, ← total_add, flowSum]
  refine total_congr fun k f _ => ?_
  -- a flow is in a whole minute of the window, or in a fragment, and not in both
  by_cases hgroup : k.2 = group
  · have hwhole : ((low ≤ (bucketOf k f).1 ∧ (bucketOf k f).1 < high) ∧ (bucketOf k f).2 = group)
        ↔ low ≤ f.occurredAt ∧ f.occurredAt < high := by
      rw [bucketOf, and_iff_left hgroup]
      dsimp only [low, high]
      omega
    rw [if_congr hwhole rfl rfl, if_congr (and_iff_left hgroup) rfl rfl,
      if_congr (and_iff_left hgroup) rfl rfl]
    dsimp only [low, high]
    split_ifs <;> omega
  · rw [if_neg fun hc => hgroup hc.2, if_neg fun hc => hgroup hc.2, if_neg fun hc => hgroup hc.2,
      add_zero]

end Steps

/-- **The sums of the display statistics are exact**, after every run of batches that are
applied and undone. -/
theorem stats_sums {feeVault vault : Address} {t : Tables} (h : Reachable feeVault vault t) :
    Sums t := by
  have hsound := sound_of_reachable h
  constructor
  · intro minute group
    refine (hsound.buckets _).trans (total_congr fun k f _ => if_congr ?_ rfl rfl)
    rw [bucketOf, Prod.mk.injEq]
  · exact hsound.stock.amount_eq
  · intro account
    refine (hsound.wallets.amount_eq account).trans ?_
    refine Eq.trans ?_ (total_ite (fun (k : PositionKey) n => k.2 = account ∧ 0 < n) _)
    refine total_congr fun k n _ => ?_
    rw [positiveRef, ite_and]
  · exact hsound.window

/-- A credit of the holders and an allocation, of one transaction. -/
def sampleObservations : List EventObservation :=
  let log (address : Address) (logIndex : ℕ) (h : logIndex ≤ maxSafeInteger) : RpcLog :=
    { address, blockHash := 7, blockNumber := 11, transactionHash := 9, transactionIndex := 0,
      logIndex, transactionIndex_le := Nat.zero_le _, logIndex_le := h }
  [{ event := { module := .protocolFeeVault, eventName := .holderFeesAccrued,
                args := args [(.marketId, .bytes32 1), (.feeAsset, .address 5), (.amount, .bigint 40)],
                log := log 2 0 zero_le_maxSafeInteger }, timestamp := 100 },
    { event := { module := .userStockVault, eventName := .allocationLocked,
                 args := args [(.assetUid, .bytes32 6), (.user, .address 8),
                   (.userTotalAllocated, .bigint 30)],
                 log := log 3 1 one_le_maxSafeInteger }, timestamp := 100 }]

/-- The observations are applied to empty tables. -/
def sampleBatch : Except JsError (Tables × StatsUndo) :=
  applyStatsEvents 2 3 .empty sampleObservations []

theorem sampleBatch_isOk : sampleBatch.isOk = true := by decide +kernel

/-- The tables after the batch. -/
def sampleTables : Tables := (value sampleBatch sampleBatch_isOk).1

theorem reachable_sampleTables : Reachable 2 3 sampleTables :=
  (Transition.Reachable.of_init rfl : Reachable 2 3 Tables.empty).next
    (Step.applied sampleObservations [] (eq_ok_value sampleBatch_isOk))

theorem stats_sums_sample :
    flowRows sampleTables 90 130 = [(⟨.allocation, 5, some .holders⟩, 40)] ∧ Sums sampleTables :=
  ⟨by decide +kernel, stats_sums reachable_sampleTables⟩

end StatsDisplay

end Backend

end TickerGarden
