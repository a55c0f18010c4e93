import TickerGarden.Backend.BurnTotals
import TickerGarden.Lib.Reducer
import TickerGarden.Lib.Transition

/-!
# When the burn totals can be read

The projector keeps its tables exact: after an invocation that stopped at the block `T`, a
contribution is there for every block up to `T` that created the market or burned its fees,
with the amounts of that block (`TickerGarden.Backend.BurnTotals.Projected`), and the row of
totals has the sums of all of them, under the hash of the newest
(`TickerGarden.Backend.BurnTotals.TotalsAt`).

So whether the read side serves the row is decided by that hash alone. It is the one of the
checkpoint when the newest of these blocks is the anchor.
-/

namespace TickerGarden

open Checked Transition

namespace Backend

namespace BurnTotals

/-! ### What is burned -/

/-- Whose fees are burned. -/
inductive Role
  | creator
  | staker
  | holder

/-- The number of a role in an event. -/
def Role.number : Role → ℤ
  | .creator => 0
  | .staker => 1
  | .holder => 2

/-- What an event burns of a market, for a role. -/
def burnedBy (id : Bytes32) (role : Role) (event : DecodedProtocolEvent) : ℤ :=
  if isMemeFeesBurned event ∧ event.args .marketId = some (.bytes32 id) ∧
      roleNumber (event.args .role) = some role.number
  then (toBigInt (event.args .amount)).toOption.getD 0 else 0

/-- What the events burn of a market, for a role. -/
def burnedIn (events : List DecodedProtocolEvent) (id : Bytes32) (role : Role) : ℤ :=
  (events.map (burnedBy id role)).sum

/-- What is burned of a market in the blocks up to a height, for a role. -/
def burnedThrough (h : History) (id : Bytes32) (role : Role) (height : ℕ) : ℤ :=
  ((List.range (height + 1)).map fun n => burnedIn (h.events n) id role).sum

/-- The events create the market, or burn its fees. -/
def Touches (events : List DecodedProtocolEvent) (id : Bytes32) : Prop :=
  ∃ event ∈ events, (isMarketCreated event ∨ isMemeFeesBurned event) ∧
    event.args .marketId = some (.bytes32 id)

instance (events : List DecodedProtocolEvent) (id : Bytes32) : Decidable (Touches events id) :=
  inferInstanceAs (Decidable (∃ event ∈ events, _))

/-- The market is created at a height. -/
def CreatedAt (h : History) (id : Bytes32) (n : ℕ) : Prop :=
  ∃ event ∈ h.events n, isMarketCreated event ∧ event.args .marketId = some (.bytes32 id)

/-- The amount of a row for a role. -/
def MemeFeeBurn.amount (burn : MemeFeeBurn) : Role → ℤ
  | .creator => burn.creatorRaw
  | .staker => burn.stakerRaw
  | .holder => burn.holderRaw

/-- **The row has these amounts**, and their sum. -/
structure MemeFeeBurn.Exact (burn : MemeFeeBurn) (amount : Role → ℤ) : Prop where
  amount_eq : ∀ role, burn.amount role = amount role
  total_eq : burn.totalRaw = amount .creator + amount .staker + amount .holder

/-- **The totals are read exactly**: the read succeeds, for the block, with the amounts burned
up to it. -/
def ReadsExactly (h : History) (db : Db) (id : Bytes32) (height : ℕ) : Prop :=
  ∃ read, readMemeFeeBurns h db id = .ok read ∧ read.throughBlock = height ∧
    read.burns.Exact fun role => burnedThrough h id role height

/-! ### The burns of a block -/

/-- Amounts are added to a row. -/
def BurnRow.plus (row : BurnRow) (amount : Role → ℤ) : BurnRow :=
  { row with
    creatorRaw := row.creatorRaw + amount .creator
    stakerRaw := row.stakerRaw + amount .staker
    holderRaw := row.holderRaw + amount .holder }

theorem BurnRow.plus_zero (row : BurnRow) : (row.plus fun _ => 0) = row := by
  simp [BurnRow.plus]

theorem BurnRow.plus_plus (row : BurnRow) (a b : Role → ℤ) :
    (row.plus a).plus b = row.plus fun role => a role + b role := by
  simp [BurnRow.plus, add_assoc]

/-- The checks of a burn leave three roles. -/
theorem BurnFold.role_of_checkedRow {s : BurnFold} {event : DecodedProtocolEvent} {id : Bytes32}
    {role : Option ℤ} {amount : ℤ} (h : s.checkedRow event id role amount = .ok ()) :
    (∃ row ∈ s.rows, row.marketId = id) ∧ ∃ r : Role, role = some r.number := by
  obtain ⟨_, hrow, h⟩ := bind_eq_ok.mp h
  obtain ⟨token, _, h⟩ := bind_eq_ok.mp h
  rw [revertIf_eq_ok] at hrow h
  simp only [not_or, not_not] at h
  obtain ⟨-, hrole, -, -⟩ := h
  constructor
  · cases hfind : s.rows.find? fun row => row.marketId = id with
    | none => simp [hfind] at hrow
    | some row =>
      have hid := List.find?_some hfind
      exact ⟨row, List.mem_of_find?_eq_some hfind, of_decide_eq_true hid⟩
  · simp only [List.mem_cons, List.not_mem_nil, or_false] at hrole
    obtain rfl | rfl | rfl := hrole
    · exact ⟨.creator, rfl⟩
    · exact ⟨.staker, rfl⟩
    · exact ⟨.holder, rfl⟩

/-- What an event adds to a row is what it burns of the market, for each role. -/
theorem BurnRow.add_eq_plus {row : BurnRow} {event : DecodedProtocolEvent} {id : Bytes32}
    {r : Role} {amount : ℤ} (hburn : isMemeFeesBurned event = true)
    (hid : event.args .marketId = some (.bytes32 id))
    (hrole : roleNumber (event.args .role) = some r.number)
    (hamount : toBigInt (event.args .amount) = .ok amount) :
    (if row.marketId = id then row.add r.number amount else row)
      = row.plus fun role => burnedBy row.marketId role event := by
  have hburned (role : Role) : burnedBy row.marketId role event
      = if id = row.marketId ∧ r.number = role.number then amount else 0 := by
    rw [burnedBy, hid, hrole, hamount]
    simp [hburn, Except.toOption]
  split_ifs with heq
  · subst heq
    simp only [hburned, true_and]
    cases r <;> simp [BurnRow.add, BurnRow.plus, Role.number]
  · simp only [hburned, Ne.symm heq, false_and, if_false]
    exact row.plus_zero.symm

/-- **One event**: the rows have what it burns, and the market it burns has a row. -/
theorem BurnFold.event_eq_ok {s t : BurnFold} {event : DecodedProtocolEvent}
    (h : s.event event = .ok t) :
    t.rows = s.rows.map (fun row => row.plus fun role => burnedBy row.marketId role event) ∧
    ∀ id, isMemeFeesBurned event → event.args .marketId = some (.bytes32 id) →
      ∃ row ∈ s.rows, row.marketId = id := by
  rw [BurnFold.event] at h
  split_ifs at h with hburn
  · obtain ⟨id, hid, h⟩ := bind_eq_ok.mp h
    obtain ⟨amount, hamount, h⟩ := bind_eq_ok.mp h
    obtain ⟨_, hchecked, h⟩ := bind_eq_ok.mp h
    obtain ⟨_, -, h⟩ := bind_eq_ok.mp h
    obtain rfl := Except.ok.inj h
    obtain ⟨hrow, r, hrole⟩ := role_of_checkedRow hchecked
    have hid' : event.args .marketId = some (.bytes32 id) := by
      unfold hash at hid
      split at hid
      · rename_i heq
        rw [heq, Except.ok.inj hid]
      · cases hid
    refine ⟨List.map_congr_left fun row _ => ?_, fun id' _ heq => ?_⟩
    · rw [hrole]
      exact row.add_eq_plus hburn hid' hrole hamount
    · obtain rfl : id = id' := by simpa [hid'] using heq
      exact hrow
  · obtain rfl := Except.ok.inj h
    refine ⟨?_, fun _ hb => absurd hb hburn⟩
    have hzero (row : BurnRow) : (row.plus fun role => burnedBy row.marketId role event) = row := by
      have hnone (role : Role) : burnedBy row.marketId role event = 0 :=
        if_neg fun hb => hburn hb.1
      simp only [hnone, row.plus_zero]
    simp only [hzero, List.map_id']

/-- **The events of a block**: the rows have what they burn, and the markets they burn have
rows. -/
theorem BurnFold.foldlM_eq_ok {events : List DecodedProtocolEvent} {s t : BurnFold}
    (h : events.foldlM BurnFold.event s = .ok t) :
    t.rows = s.rows.map (fun row => row.plus (burnedIn events row.marketId)) ∧
    ∀ event ∈ events, ∀ id, isMemeFeesBurned event →
      event.args .marketId = some (.bytes32 id) → ∃ row ∈ s.rows, row.marketId = id := by
  induction events generalizing s with
  | nil =>
    obtain rfl := Except.ok.inj h
    refine ⟨?_, fun _ hmem => absurd hmem List.not_mem_nil⟩
    have hzero (row : BurnRow) : row.plus (burnedIn [] row.marketId) = row := row.plus_zero
    simp only [hzero, List.map_id']
  | cons event events ih =>
    rw [List.foldlM_cons, bind_eq_ok] at h
    obtain ⟨u, hu, h⟩ := h
    obtain ⟨hrows, hburned⟩ := event_eq_ok hu
    obtain ⟨hrest, hburns⟩ := ih h
    constructor
    · rw [hrest, hrows, List.map_map]
      refine List.map_congr_left fun row _ => ?_
      rw [Function.comp_apply, BurnRow.plus_plus]
      rfl
    · intro e he id hb hid
      rcases List.mem_cons.mp he with rfl | he
      · exact hburned id hb hid
      · obtain ⟨row, hrow, heq⟩ := hburns e he id hb hid
        rw [hrows] at hrow
        obtain ⟨row', hrow', rfl⟩ := List.mem_map.mp hrow
        exact ⟨row', hrow', heq⟩

/-- **What `aggregateMemeFeeBurns` returns.** -/
theorem aggregateMemeFeeBurns_eq_ok {events : List DecodedProtocolEvent}
    {markets : List MarketRecord} {burns : List MemeFeeBurn}
    (h : aggregateMemeFeeBurns events markets = .ok burns) :
    burns = markets.map (fun m => (m.burnRow.plus (burnedIn events m.marketId)).payload) ∧
    ∀ event ∈ events, ∀ id, isMemeFeesBurned event →
      event.args .marketId = some (.bytes32 id) → id ∈ markets.map MarketRecord.marketId := by
  obtain ⟨t, ht, h⟩ := bind_eq_ok.mp h
  obtain rfl := Except.ok.inj h
  obtain ⟨hrows, hburned⟩ := BurnFold.foldlM_eq_ok ht
  constructor
  · rw [hrows, List.map_map, List.map_map]
    rfl
  · intro event he id hb hid
    obtain ⟨row, hrow, rfl⟩ := hburned event he id hb hid
    obtain ⟨m, hm, rfl⟩ := List.mem_map.mp hrow
    exact List.mem_map_of_mem hm

theorem BurnRow.exact_payload (m : MarketRecord) (amount : Role → ℤ) :
    (m.burnRow.plus amount).payload.Exact amount where
  amount_eq role := by cases role <;> exact zero_add _
  total_eq := by
    change 0 + _ + (0 + _) + (0 + _) = _
    rw [zero_add, zero_add, zero_add]

/-! ### One block -/

/-- A block whose events decode has them for its events. -/
theorem ChainBlock.decode_eq_ok {b : ChainBlock} {events : List DecodedProtocolEvent}
    (h : b.decode = .ok events) : events = b.events := by
  have hread := Reducer.mapM_eq_ok_iff.mp h
  have hsome : b.logs.filterMap StoredLog.read = events.map some := by
    refine List.forall₂_eq_eq_eq ▸ List.forall₂_map_right_iff.mpr (hread.imp fun _ _ he => ?_)
    exact orRevert_eq_ok.mp he
  have hevents : b.events = (b.logs.filterMap StoredLog.read).filterMap id := by
    rw [ChainBlock.events, List.filterMap_filterMap]
  rw [hevents, hsome, List.filterMap_map]
  exact (List.filterMap_some ..).symm

theorem hash_eq_ok {value : Option ArgValue} {id : Bytes32} :
    hash value = .ok id ↔ value = some (.bytes32 id) := by
  unfold hash
  split
  · simp
  · rename_i hne
    simp only [throwJs, reduceCtorEq, false_iff]
    rintro rfl
    exact hne id rfl

/-- The markets of events are those of their arguments. -/
theorem mem_marketIds {p : DecodedProtocolEvent → Bool} {events : List DecodedProtocolEvent}
    {ids : List Bytes32} (h : marketIds p events = .ok ids) (id : Bytes32) :
    id ∈ ids ↔ ∃ event ∈ events, p event ∧ event.args .marketId = some (.bytes32 id) := by
  rw [Reducer.mem_mapM h]
  simp only [List.mem_filter, hash_eq_ok, and_assoc]

/-- The markets created in a block are published. -/
theorem mem_of_launchRecovery {markets : List MarketRecord} {events : List DecodedProtocolEvent}
    {found found' : List Bytes32} (h : events.foldlM (launchRecovery markets) found = .ok found') :
    ∀ event ∈ events, ∀ id, isMarketCreated event → event.args .marketId = some (.bytes32 id) →
      id ∈ markets.map MarketRecord.marketId := by
  induction events generalizing found with
  | nil => exact fun _ hmem => absurd hmem List.not_mem_nil
  | cons event events ih =>
    rw [List.foldlM_cons, bind_eq_ok] at h
    obtain ⟨found₁, hfound, h⟩ := h
    intro e he id hcreated hid
    rcases List.mem_cons.mp he with rfl | he
    · rw [launchRecovery, if_pos hcreated] at hfound
      obtain ⟨id', hid', hfound⟩ := bind_eq_ok.mp hfound
      obtain ⟨_, hmem, -⟩ := bind_eq_ok.mp hfound
      obtain rfl : id = id' := by simpa [hid] using hash_eq_ok.mp hid'
      exact not_not.mp (revertIf_eq_ok.mp hmem)
    · exact ih h e he id hcreated hid

/-- **What a block contributes**: a row for each market that it touches, with what it burns. -/
structure BurnsOf (events : List DecodedProtocolEvent) (burns : List MemeFeeBurn) : Prop where
  nodup : (burns.map MemeFeeBurn.marketId).Nodup
  mem_iff : ∀ id, id ∈ burns.map MemeFeeBurn.marketId ↔ Touches events id
  exact : ∀ burn ∈ burns, burn.Exact (burnedIn events burn.marketId)

/-- The published markets are different ones. -/
def Invocation.Distinct (input : Invocation) : Prop :=
  (input.markets.map MarketRecord.marketId).Nodup

theorem blockBurns_eq_ok {h : History} {input : Invocation} (hdistinct : input.Distinct) {n : ℕ}
    {b : ChainBlock} (hb : h.block n = some b) {burns : List MemeFeeBurn}
    (hburns : blockBurns input n b = .ok burns) : BurnsOf b.events burns := by
  obtain ⟨events, hevents, hburns⟩ := bind_eq_ok.mp hburns
  obtain ⟨created, hcreated, hburns⟩ := bind_eq_ok.mp hburns
  obtain ⟨_, -, hburns⟩ := bind_eq_ok.mp hburns
  obtain ⟨_, hlaunched, hburns⟩ := bind_eq_ok.mp hburns
  obtain ⟨burned, hburned, hburns⟩ := bind_eq_ok.mp hburns
  obtain rfl := ChainBlock.decode_eq_ok hevents
  obtain ⟨hrows, hpublished⟩ := aggregateMemeFeeBurns_eq_ok hburns
  have hids : burns.map MemeFeeBurn.marketId
      = (input.markets.filter fun m => m.marketId ∈ created ++ burned).map MarketRecord.marketId := by
    rw [hrows, List.map_map]
    rfl
  -- only the fee vault has an event of this name
  have htouches (id : Bytes32) : id ∈ created ++ burned ↔ Touches b.events id := by
    rw [List.mem_append, mem_marketIds hcreated, mem_marketIds hburned, ← exists_or]
    refine exists_congr fun event => ?_
    rw [← and_or_left, ← or_and_right]
    refine and_congr_right fun hmem => and_congr_left fun _ => or_congr_right ?_
    rw [isMemeFeesBurned, decide_eq_true_iff, decide_eq_true_iff]
    exact ⟨fun hname => ⟨h.emitter n b hb event hmem hname, hname⟩, fun hburn => hburn.2⟩
  refine ⟨?_, fun id => ?_, fun burn hmem => ?_⟩
  · rw [hids]
    exact hdistinct.sublist (List.filter_sublist.map _)
  · rw [hids, List.mem_map]
    constructor
    · rintro ⟨m, hm, rfl⟩
      exact (htouches _).mp (of_decide_eq_true (List.mem_filter.mp hm).2)
    · intro ht
      have hmem : id ∈ input.markets.map MarketRecord.marketId := by
        obtain ⟨event, he, hcreates | hburns', hid⟩ := ht
        · exact mem_of_launchRecovery hlaunched event he id hcreates hid
        · exact (List.filter_sublist.map _).mem (hpublished event he id hburns' hid)
      obtain ⟨m, hm, rfl⟩ := List.mem_map.mp hmem
      exact ⟨m, List.mem_filter.mpr ⟨hm, decide_eq_true ((htouches _).mpr ht)⟩, rfl⟩
  · rw [hrows] at hmem
    obtain ⟨m, -, rfl⟩ := List.mem_map.mp hmem
    exact BurnRow.exact_payload m _

/-! ### The contributions -/

theorem Written.affected_foldl (w : Written) (n : ℕ) (k : Bytes32) (burns : List MemeFeeBurn) :
    (burns.foldl (fun w burn => w.contribute n k burn) w).affected
      = w.affected ++ burns.map MemeFeeBurn.marketId := by
  induction burns generalizing w with
  | nil => exact (List.append_nil _).symm
  | cons burn burns ih =>
    rw [List.foldl_cons, ih, List.map_cons, Written.contribute, List.append_assoc]
    rfl

/-- One contribution, of a block that has not contributed to the market. -/
theorem Written.lookup_contribute {w : Written} {n : ℕ} {k : Bytes32} {burn : MemeFeeBurn}
    (hnew : (burn.marketId, k) ∉ w.contributions) (key : Bytes32 × Bytes32) (row : Contribution) :
    (w.contribute n k burn).contributions.lookup key = some row
      ↔ (key = (burn.marketId, k) ∧ row = ⟨n, burn⟩) ∨ w.contributions.lookup key = some row := by
  have hnone := AList.lookup_eq_none.mpr hnew
  rw [Written.contribute, hnone, Option.map_none, Option.getD_none]
  rcases eq_or_ne key (burn.marketId, k) with rfl | hne
  · rw [AList.lookup_insert, hnone]
    simp [eq_comm]
  · rw [AList.lookup_insert_ne hne]
    simp [hne]

/-- **The contributions of a block** are written beside those that are there. -/
theorem Written.lookup_foldl {w : Written} {n : ℕ} {k : Bytes32} {burns : List MemeFeeBurn}
    (hnodup : (burns.map MemeFeeBurn.marketId).Nodup)
    (hnew : ∀ burn ∈ burns, (burn.marketId, k) ∉ w.contributions) (key : Bytes32 × Bytes32)
    (row : Contribution) :
    (burns.foldl (fun w burn => w.contribute n k burn) w).contributions.lookup key = some row
      ↔ (∃ burn ∈ burns, key = (burn.marketId, k) ∧ row = ⟨n, burn⟩) ∨
        w.contributions.lookup key = some row := by
  induction burns generalizing w with
  | nil => simp
  | cons burn burns ih =>
    obtain ⟨hburn, hburns⟩ := List.nodup_cons.mp hnodup
    have hfirst := w.lookup_contribute (n := n) (hnew burn List.mem_cons_self)
    rw [List.foldl_cons, ih hburns, hfirst, List.exists_mem_cons_iff, or_assoc, or_left_comm]
    intro b hb hmem
    obtain ⟨row', hrow'⟩ := Option.isSome_iff_exists.mp (AList.lookup_isSome.mpr hmem)
    rcases (hfirst _ _).mp hrow' with ⟨heq, -⟩ | hold
    · have hid : b.marketId = burn.marketId := (Prod.ext_iff.mp heq).1
      exact hburn (hid ▸ List.mem_map_of_mem hb)
    · refine hnew b (List.mem_cons_of_mem _ hb) (AList.lookup_isSome.mp ?_)
      rw [hold]
      rfl

/-- **The contributions are those of some blocks**: there is a row for each of these blocks
and each market that it touches, with what it burns. -/
structure Projected (h : History) (done : ℕ → Prop) (contributions : Contributions) : Prop where
  sound : ∀ id k row, contributions.lookup (id, k) = some row → done row.blockNumber ∧
    (h.block row.blockNumber).map ChainBlock.hash = some k ∧
    Touches (h.events row.blockNumber) id ∧
    row.payload.Exact (burnedIn (h.events row.blockNumber) id)
  complete : ∀ id n b, done n → h.block n = some b → Touches b.events id →
    (id, b.hash) ∈ contributions

section Contributions

variable {h : History} {done done' : ℕ → Prop} {contributions : Contributions}

/-- Only the blocks that touch a market matter. -/
theorem Projected.congr (hp : Projected h done contributions)
    (hdone : ∀ n id, Touches (h.events n) id → (done n ↔ done' n)) :
    Projected h done' contributions where
  sound id k row hrow := by
    obtain ⟨hn, hhash, htouches, hexact⟩ := hp.sound id k row hrow
    exact ⟨(hdone _ id htouches).mp hn, hhash, htouches, hexact⟩
  complete id n b hn hb htouches := by
    have hevents : h.events n = b.events := by rw [History.events, hb]; rfl
    exact hp.complete id n b ((hdone n id (hevents ▸ htouches)).mpr hn) hb htouches

/-- **One block** is projected: it contributes to the markets that it touches. -/
theorem Projected.block {w w' : Written} {input : Invocation} {n : ℕ} (hdistinct : input.Distinct)
    (hp : Projected h done w.contributions) (hn : ¬ done n)
    (hw : projectBlock h input w n = .ok w') :
    Projected h (fun m => done m ∨ m = n) w'.contributions ∧
    ∀ id, id ∈ w'.affected ↔ id ∈ w.affected ∨ Touches (h.events n) id := by
  rw [projectBlock] at hw
  split at hw
  case h_1 hb =>
    obtain rfl := Except.ok.inj hw
    have hevents : h.events n = [] := by rw [History.events, hb]; rfl
    have hnot (id : Bytes32) : ¬ Touches (h.events n) id := by
      rintro ⟨event, hmem, -⟩
      exact List.not_mem_nil (hevents ▸ hmem)
    refine ⟨hp.congr fun m id ht => ?_, fun id => by simp [hnot id]⟩
    have hne : m ≠ n := by
      rintro rfl
      exact hnot id ht
    simp [hne]
  case h_2 b hb =>
    obtain ⟨burns, hburns, hw⟩ := bind_eq_ok.mp hw
    obtain rfl := Except.ok.inj hw
    obtain ⟨hnodup, hmem, hexact⟩ := blockBurns_eq_ok hdistinct hb hburns
    have hevents : h.events n = b.events := by rw [History.events, hb]; rfl
    have hnew : ∀ burn ∈ burns, (burn.marketId, b.hash) ∉ w.contributions := by
      intro burn _ hold
      obtain ⟨row, hrow⟩ := Option.isSome_iff_exists.mp (AList.lookup_isSome.mpr hold)
      obtain ⟨hdone, hhash, -⟩ := hp.sound _ _ row hrow
      obtain ⟨c, hc, hch⟩ := Option.map_eq_some_iff.mp hhash
      exact hn (h.hash_injective _ _ c b hc hb hch ▸ hdone)
    have hlookup := w.lookup_foldl (n := n) hnodup hnew
    refine ⟨⟨fun id k row hrow => ?_, fun id m c hm hc htouches => ?_⟩, fun id => ?_⟩
    · rcases (hlookup _ _).mp hrow with ⟨burn, hburn, heq, rfl⟩ | hold
      · obtain ⟨rfl, rfl⟩ := Prod.mk.injEq .. ▸ heq
        rw [hevents]
        refine ⟨.inr rfl, by rw [hb]; rfl, ?_, hexact burn hburn⟩
        exact (hmem _).mp (List.mem_map_of_mem hburn)
      · obtain ⟨hdone, hrest⟩ := hp.sound id k row hold
        exact ⟨.inl hdone, hrest⟩
    · rw [← AList.lookup_isSome, Option.isSome_iff_exists]
      rcases hm with hm | rfl
      · obtain ⟨row, hrow⟩ := Option.isSome_iff_exists.mp
          (AList.lookup_isSome.mpr (hp.complete id m c hm hc htouches))
        exact ⟨row, (hlookup _ _).mpr (.inr hrow)⟩
      · obtain rfl := Option.some.inj (hb.symm.trans hc)
        obtain ⟨burn, hburn, rfl⟩ := List.mem_map.mp ((hmem id).mpr htouches)
        exact ⟨_, (hlookup _ _).mpr (.inl ⟨burn, hburn, rfl, rfl⟩)⟩
    · rw [Written.affected_foldl, List.mem_append, hmem, hevents]

/-- **The blocks** of an invocation are projected, each once. -/
theorem Projected.blocks {w w' : Written} {input : Invocation} {ns : List ℕ}
    (hdistinct : input.Distinct) (hp : Projected h done w.contributions) (hnodup : ns.Nodup)
    (hns : ∀ n ∈ ns, ¬ done n) (hw : ns.foldlM (projectBlock h input) w = .ok w') :
    Projected h (fun m => done m ∨ m ∈ ns) w'.contributions ∧
    ∀ id, id ∈ w'.affected ↔ id ∈ w.affected ∨ ∃ n ∈ ns, Touches (h.events n) id := by
  induction ns generalizing w done with
  | nil =>
    obtain rfl := Except.ok.inj hw
    exact ⟨hp.congr fun m id _ => by simp, fun id => by simp⟩
  | cons n ns ih =>
    obtain ⟨hn, hnodup⟩ := List.nodup_cons.mp hnodup
    rw [List.foldlM_cons, bind_eq_ok] at hw
    obtain ⟨u, hu, hw⟩ := hw
    obtain ⟨hpu, hau⟩ := hp.block hdistinct (hns n List.mem_cons_self) hu
    have hrest : ∀ m ∈ ns, ¬ (done m ∨ m = n) := by
      rintro m hm (hdone | rfl)
      · exact hns m (List.mem_cons_of_mem n hm) hdone
      · exact hn hm
    obtain ⟨hp', ha'⟩ := ih hpu hnodup hrest hw
    refine ⟨hp'.congr fun m id _ => ?_, fun id => ?_⟩
    · rw [List.mem_cons, or_assoc]
    · rw [ha', hau, List.exists_mem_cons_iff, or_assoc]

end Contributions

/-! ### The totals of a market -/

/-- A height at which a market is touched has a block. -/
theorem History.block_of_touches (h : History) {n : ℕ} {id : Bytes32}
    (htouches : Touches (h.events n) id) : ∃ b, h.block n = some b ∧ h.events n = b.events := by
  cases hb : h.block n with
  | none =>
    obtain ⟨event, hmem, -⟩ := htouches
    rw [History.events, hb] at hmem
    exact absurd hmem List.not_mem_nil
  | some b => exact ⟨b, rfl, by rw [History.events, hb]; rfl⟩

section Totals

variable {h : History} {height : ℕ} {contributions : Contributions} {id : Bytes32}

theorem mem_factsOf {k : Bytes32} {row : Contribution} :
    (k, row) ∈ factsOf contributions id ↔ contributions.lookup (id, k) = some row := by
  rw [factsOf, List.mem_insertionSort, List.mem_map, ← Option.mem_def, AList.mem_lookup_iff]
  constructor
  · rintro ⟨⟨⟨id', k'⟩, row'⟩, he, heq⟩
    obtain ⟨rfl, rfl⟩ := Prod.mk.injEq .. ▸ heq
    obtain ⟨hmem, hid⟩ := List.mem_filter.mp he
    obtain rfl : id' = id := of_decide_eq_true hid
    exact hmem
  · exact fun hmem => ⟨_, List.mem_filter.mpr ⟨hmem, decide_eq_true rfl⟩, rfl⟩

/-- A block contributes once to a market. -/
theorem nodup_factsOf : ((factsOf contributions id).map Prod.fst).Nodup := by
  have hperm := (List.perm_insertionSort
    (fun x y : Bytes32 × Contribution => y.2.blockNumber ≤ x.2.blockNumber)
    ((Table.restrict (fun key => key.1 = id) contributions).entries.map
      fun e => (e.1.2, e.2))).map Prod.fst
  rw [factsOf, hperm.nodup_iff, List.map_map, List.nodup_map_iff_inj_on
    (List.NodupKeys.nodup (Table.restrict _ contributions).nodupKeys)]
  rintro ⟨⟨i, k⟩, x⟩ hx ⟨⟨j, l⟩, y⟩ hy heq
  obtain rfl : i = id := of_decide_eq_true (List.mem_filter.mp hx).2
  obtain rfl : j = i := of_decide_eq_true (List.mem_filter.mp hy).2
  obtain rfl : k = l := heq
  exact (Table.restrict _ contributions).nodupKeys.eq_of_mk_mem hx hy ▸ rfl

/-- The newest contribution comes first. -/
theorem pairwise_factsOf :
    (factsOf contributions id).Pairwise fun x y => y.2.blockNumber ≤ x.2.blockNumber := by
  have : Std.Total fun x y : Bytes32 × Contribution => y.2.blockNumber ≤ x.2.blockNumber :=
    ⟨fun x y => le_total _ _⟩
  have : IsTrans (Bytes32 × Contribution) fun x y => y.2.blockNumber ≤ x.2.blockNumber :=
    ⟨fun x y z hxy hyz => hyz.trans hxy⟩
  exact List.pairwise_insertionSort _ _

/-- **The blocks that contribute to a market** are those that touch it. -/
theorem Projected.numbers_perm (hp : Projected h (· ≤ height) contributions) :
    ((factsOf contributions id).map fun f => f.2.blockNumber).Perm
      ((List.range (height + 1)).filter fun n => Touches (h.events n) id) := by
  refine (List.perm_ext_iff_of_nodup ?_ (List.nodup_range.filter _)).mpr fun n => ?_
  · rw [List.nodup_map_iff_inj_on (List.Nodup.of_map _ nodup_factsOf)]
    rintro ⟨k, x⟩ hx ⟨l, y⟩ hy heq
    obtain ⟨-, hk, -⟩ := hp.sound _ _ _ (mem_factsOf.mp hx)
    obtain ⟨-, hl, -⟩ := hp.sound _ _ _ (mem_factsOf.mp hy)
    dsimp only at heq
    rw [heq] at hk
    obtain rfl := Option.some.inj (hk.symm.trans hl)
    exact List.inj_on_of_nodup_map nodup_factsOf hx hy rfl
  · rw [List.mem_map, List.mem_filter, List.mem_range, Nat.lt_succ_iff, decide_eq_true_iff]
    constructor
    · rintro ⟨⟨k, row⟩, hmem, rfl⟩
      obtain ⟨hn, -, htouches, -⟩ := hp.sound _ _ _ (mem_factsOf.mp hmem)
      exact ⟨hn, htouches⟩
    · rintro ⟨hn, htouches⟩
      obtain ⟨b, hb, hevents⟩ := h.block_of_touches htouches
      obtain ⟨row, hrow⟩ := Option.isSome_iff_exists.mp
        (AList.lookup_isSome.mpr (hp.complete id n b hn hb (hevents ▸ htouches)))
      obtain ⟨-, hhash, -⟩ := hp.sound _ _ _ hrow
      obtain ⟨c, hc, hch⟩ := Option.map_eq_some_iff.mp hhash
      exact ⟨_, mem_factsOf.mpr hrow, h.hash_injective _ _ c b hc hb hch⟩

/-- Events that do not touch a market burn nothing of it. -/
theorem burnedIn_eq_zero {events : List DecodedProtocolEvent} (hnot : ¬ Touches events id)
    (role : Role) : burnedIn events id role = 0 := by
  refine List.sum_eq_zero fun x hx => ?_
  obtain ⟨event, hmem, rfl⟩ := List.mem_map.mp hx
  exact if_neg fun hburn => hnot ⟨event, hmem, .inr hburn.1, hburn.2.1⟩

/-- Terms that are zero may be left out of a sum. -/
theorem sum_map_filter {α : Type} {p : α → Bool} {f : α → ℤ} {l : List α}
    (hzero : ∀ x ∈ l, ¬ p x → f x = 0) : ((l.filter p).map f).sum = (l.map f).sum := by
  induction l with
  | nil => rfl
  | cons x l ih =>
    have hl := ih fun y hy => hzero y (List.mem_cons_of_mem x hy)
    rw [List.filter_cons]
    split_ifs with hx
    · rw [List.map_cons, List.sum_cons, hl, List.map_cons, List.sum_cons]
    · rw [hl, List.map_cons, List.sum_cons, hzero x List.mem_cons_self hx, zero_add]

/-- **The contributions add up** to what is burned up to the height. -/
theorem Projected.sum_amount (hp : Projected h (· ≤ height) contributions) (role : Role) :
    ((factsOf contributions id).map fun f => f.2.payload.amount role).sum
      = burnedThrough h id role height := by
  have hfacts : (factsOf contributions id).map (fun f => f.2.payload.amount role)
      = ((factsOf contributions id).map fun f => f.2.blockNumber).map
          fun n => burnedIn (h.events n) id role := by
    rw [List.map_map]
    refine List.map_congr_left fun f hf => ?_
    obtain ⟨-, -, -, hexact⟩ := hp.sound _ _ _ (mem_factsOf.mp hf)
    exact hexact.amount_eq role
  rw [hfacts, (hp.numbers_perm.map _).sum_eq, burnedThrough]
  exact sum_map_filter fun n _ hn => burnedIn_eq_zero (fun ht => hn (decide_eq_true ht)) role

/-- Their totals add up to the total. -/
theorem Projected.sum_total (hp : Projected h (· ≤ height) contributions) :
    ((factsOf contributions id).map fun f => f.2.payload.totalRaw).sum
      = burnedThrough h id .creator height + burnedThrough h id .staker height
        + burnedThrough h id .holder height := by
  rw [← hp.sum_amount, ← hp.sum_amount, ← hp.sum_amount, ← List.sum_map_add, ← List.sum_map_add]
  refine congrArg List.sum (List.map_congr_left fun f hf => ?_)
  obtain ⟨-, -, -, hexact⟩ := hp.sound _ _ _ (mem_factsOf.mp hf)
  rw [hexact.total_eq, hexact.amount_eq, hexact.amount_eq, hexact.amount_eq]

/-- The payload of the sums is exact. -/
theorem Projected.exact_sums (hp : Projected h (· ≤ height) contributions)
    (payload : MemeFeeBurn) :
    MemeFeeBurn.Exact { payload with
        creatorRaw := ((factsOf contributions id).map fun f => f.2.payload.creatorRaw).sum
        stakerRaw := ((factsOf contributions id).map fun f => f.2.payload.stakerRaw).sum
        holderRaw := ((factsOf contributions id).map fun f => f.2.payload.holderRaw).sum
        totalRaw := ((factsOf contributions id).map fun f => f.2.payload.totalRaw).sum }
      fun role => burnedThrough h id role height where
  amount_eq role := by
    cases role with
    | creator => exact hp.sum_amount .creator
    | staker => exact hp.sum_amount .staker
    | holder => exact hp.sum_amount .holder
  total_eq := hp.sum_total

/-- The newest block up to a height that touches a market. -/
structure Newest (h : History) (height : ℕ) (id : Bytes32) (n : ℕ) : Prop where
  le : n ≤ height
  touches : Touches (h.events n) id
  last : ∀ m ≤ height, Touches (h.events m) id → m ≤ n

/-- **A row of totals** is right up to a height: it has the hash of the newest block that
touches the market, and all that is burned up to the height. -/
def TotalsAt (h : History) (height : ℕ) (id : Bytes32) (row : Option AggregateRecord) : Prop :=
  ∃ n record, Newest h height id n ∧ row = some record ∧
    (h.block n).map ChainBlock.hash = some record.blockHash ∧
    record.payload.Exact fun role => burnedThrough h id role height

/-- **The row that is made again is right**, for a market some block has touched. -/
theorem Projected.totalsAt (hp : Projected h (· ≤ height) contributions) {input : Invocation}
    {anchorHash : Bytes32} {n : ℕ} (hn : n ≤ height) (htouches : Touches (h.events n) id)
    (aggregates : Table Bytes32 AggregateRecord) :
    TotalsAt h height id
      ((materialize input anchorHash contributions aggregates id).lookup id) := by
  have hmem (m : ℕ) : m ∈ (factsOf contributions id).map (fun f => f.2.blockNumber)
      ↔ m ≤ height ∧ Touches (h.events m) id := by
    rw [hp.numbers_perm.mem_iff, List.mem_filter, List.mem_range, Nat.lt_succ_iff,
      decide_eq_true_iff]
  have hexact := @Projected.exact_sums h height contributions id hp
  rw [materialize]
  cases hfacts : factsOf contributions id with
  | nil =>
    rw [hfacts] at hmem
    exact absurd ((hmem n).mpr ⟨hn, htouches⟩) List.not_mem_nil
  | cons newest rest =>
    have hsorted := @pairwise_factsOf contributions id
    rw [hfacts] at hmem hexact hsorted
    have hnewest := (hmem newest.2.blockNumber).mp List.mem_cons_self
    obtain ⟨-, hhash, -⟩ := hp.sound id newest.1 newest.2
      (mem_factsOf.mp (hfacts ▸ List.mem_cons_self))
    refine ⟨newest.2.blockNumber, _, ⟨hnewest.1, hnewest.2, fun m hm ht => ?_⟩,
      AList.lookup_insert _, hhash, hexact newest.2.payload⟩
    rw [List.map_cons] at hmem
    rcases List.mem_cons.mp ((hmem m).mpr ⟨hm, ht⟩) with rfl | hrest
    · exact le_rfl
    · obtain ⟨f, hf, rfl⟩ := List.mem_map.mp hrest
      exact (List.pairwise_cons.mp hsorted).1 f hf

end Totals

/-! ### The blocks of an invocation -/

section Blocks

variable {h : History} {input : Invocation} {first n : ℕ}

theorem mem_eventBearing {last : ℕ} : n ∈ eventBearing h first last
    ↔ first ≤ n ∧ n ≤ last ∧ ∃ b, h.block n = some b ∧ b.logs ≠ [] := by
  rw [eventBearing, List.mem_filter, List.mem_range'_1, Option.any_eq_true]
  simp only [Bool.not_eq_true', List.isEmpty_eq_false_iff]
  constructor
  · rintro ⟨⟨hle, hlt⟩, hlogs⟩
    exact ⟨hle, by omega, hlogs⟩
  · rintro ⟨hle, hlast, hlogs⟩
    exact ⟨⟨hle, by omega⟩, hlogs⟩

theorem pairwise_eventBearing (last : ℕ) : (eventBearing h first last).Pairwise (· < ·) :=
  (List.pairwise_lt_range' ..).filter _

/-- An invocation stops at one of its blocks, if there are too many, or at the anchor. -/
theorem throughOf_cases (blocks : List ℕ) :
    (256 < blocks.length ∧ throughOf input blocks ∈ blocks) ∨
      (blocks.length ≤ 256 ∧ throughOf input blocks = input.blockNumber) := by
  rw [throughOf]
  split_ifs with hlength
  · refine .inl ⟨hlength, ?_⟩
    rw [List.getD_eq_getElem?_getD, List.getElem?_eq_getElem (by omega), Option.getD_some]
    exact List.getElem_mem _
  · exact .inr ⟨by omega, rfl⟩

theorem throughOf_le : throughOf input (readBlocks h input first) ≤ input.blockNumber := by
  rcases @throughOf_cases input (readBlocks h input first) with ⟨-, hmem⟩ | ⟨-, heq⟩
  · exact (mem_eventBearing.mp (List.mem_of_mem_take hmem)).2.1
  · exact heq.le

/-- **The blocks that are projected** are all that have logs, as far as the invocation goes. -/
theorem mem_projected : n ∈ (readBlocks h input first).filter
      (fun n => n ≤ throughOf input (readBlocks h input first))
    ↔ first ≤ n ∧ n ≤ throughOf input (readBlocks h input first) ∧
      ∃ b, h.block n = some b ∧ b.logs ≠ [] := by
  rw [List.mem_filter, decide_eq_true_iff]
  constructor
  · rintro ⟨hmem, hle⟩
    obtain ⟨hfirst, -, hlogs⟩ := mem_eventBearing.mp (List.mem_of_mem_take hmem)
    exact ⟨hfirst, hle, hlogs⟩
  · rintro ⟨hfirst, hle, hlogs⟩
    refine ⟨?_, hle⟩
    have hmem : n ∈ eventBearing h first input.blockNumber :=
      mem_eventBearing.mpr ⟨hfirst, hle.trans throughOf_le, hlogs⟩
    have hsplit := List.take_append_drop 257 (eventBearing h first input.blockNumber)
    rcases List.mem_append.mp (hsplit ▸ hmem) with htake | hdrop
    · exact htake
    · -- what is left out comes after the block where the invocation stops
      have hsorted := @pairwise_eventBearing h first input.blockNumber
      rw [← hsplit, List.pairwise_append] at hsorted
      rcases @throughOf_cases input (readBlocks h input first) with ⟨-, hstop⟩ | ⟨hshort, -⟩
      · exact absurd hle (not_le.mpr (hsorted.2.2 _ hstop n hdrop))
      · rw [readBlocks, List.length_take] at hshort
        have hnil : (eventBearing h first input.blockNumber).drop 257 = [] :=
          List.drop_eq_nil_of_le (by omega)
        rw [hnil] at hdrop
        exact absurd hdrop List.not_mem_nil

theorem nodup_projected : ((readBlocks h input first).filter
    fun n => n ≤ throughOf input (readBlocks h input first)).Nodup :=
  (((pairwise_eventBearing input.blockNumber).imp fun hlt => hlt.ne).take).filter _

/-- A block that touches a market has logs. -/
theorem logs_of_touches {id : Bytes32} (htouches : Touches (h.events n) id) :
    ∃ b, h.block n = some b ∧ b.logs ≠ [] := by
  obtain ⟨b, hb, hevents⟩ := h.block_of_touches htouches
  refine ⟨b, hb, fun hnil => ?_⟩
  obtain ⟨event, hmem, -⟩ := htouches
  rw [hevents, ChainBlock.events, hnil] at hmem
  exact List.not_mem_nil hmem

end Blocks

/-! ### The rows that are made again -/

section Materialize

variable {h : History} {input : Invocation} {anchorHash : Bytes32} {contributions : Contributions}
  {id : Bytes32}

/-- The rows of the other markets stay. -/
theorem lookup_materialize_of_ne {id' : Bytes32} (hne : id ≠ id')
    (aggregates : Table Bytes32 AggregateRecord) :
    (materialize input anchorHash contributions aggregates id').lookup id
      = aggregates.lookup id := by
  rw [materialize]
  dsimp only
  split
  · split
    · exact AList.lookup_insert_ne hne
    · exact AList.lookup_erase_ne hne
  · exact AList.lookup_insert_ne hne

theorem lookup_foldl_materialize {ids : List Bytes32} (hid : id ∉ ids)
    (aggregates : Table Bytes32 AggregateRecord) :
    (ids.foldl (materialize input anchorHash contributions) aggregates).lookup id
      = aggregates.lookup id := by
  induction ids generalizing aggregates with
  | nil => rfl
  | cons id' ids ih =>
    obtain ⟨hne, hids⟩ := not_or.mp (mt List.mem_cons.mpr hid)
    rw [List.foldl_cons, ih hids, lookup_materialize_of_ne hne]

/-- **The rows of the affected markets are right.** -/
theorem Projected.totalsAt_foldl {height n : ℕ} (hp : Projected h (· ≤ height) contributions)
    (hn : n ≤ height) (htouches : Touches (h.events n) id) {ids : List Bytes32} (hid : id ∈ ids)
    (aggregates : Table Bytes32 AggregateRecord) :
    TotalsAt h height id
      ((ids.foldl (materialize input anchorHash contributions) aggregates).lookup id) := by
  induction ids generalizing aggregates with
  | nil => exact absurd hid List.not_mem_nil
  | cons id' ids ih =>
    rw [List.foldl_cons]
    by_cases hmem : id ∈ ids
    · exact ih hmem _
    · obtain rfl : id = id' := (List.mem_cons.mp hid).resolve_right hmem
      rw [lookup_foldl_materialize hmem]
      exact hp.totalsAt hn htouches aggregates

end Materialize

/-! ### Runs of invocations -/

/-- **The tables are projected** through a block: the checkpoint is at it, the contributions
are those of the blocks up to it, and the rows of totals are right. -/
structure Current (h : History) (db : Db) (height : ℕ) : Prop where
  checkpoint : ∃ generation k, (h.block height).map ChainBlock.hash = some k ∧
    db.checkpoint = some ⟨algorithmVersion, height + 1, generation, (height, k)⟩
  contributions : Projected h (· ≤ height) db.contributions
  totals : ∀ id, ∀ n ≤ height, Touches (h.events n) id →
    TotalsAt h height id (db.aggregates.lookup id)

/-- The tables are of no version, or of another one. -/
def Db.Outdated (db : Db) : Prop := ∀ c ∈ db.checkpoint, c.algorithmVersion ≠ algorithmVersion

/-- **The invariant** of a run. -/
def Sound (h : History) (db : Db) : Prop := db.Outdated ∨ ∃ height, Current h db height

/-- A row of totals stays right while nothing touches its market. -/
theorem TotalsAt.mono {h : History} {height height' : ℕ} {id : Bytes32}
    {row : Option AggregateRecord} (hrow : TotalsAt h height id row) (hle : height ≤ height')
    (hquiet : ∀ n, height < n → n ≤ height' → ¬ Touches (h.events n) id) :
    TotalsAt h height' id row := by
  obtain ⟨n, record, ⟨hn, htouches, hlast⟩, hrecord, hhash, hexact⟩ := hrow
  have hthrough : (fun role => burnedThrough h id role height')
      = fun role => burnedThrough h id role height := by
    funext role
    induction height', hle using Nat.le_induction with
    | base => rfl
    | succ m hm ih =>
      rw [burnedThrough, List.range_succ, List.map_append, List.sum_append, List.map_singleton,
        List.sum_singleton, burnedIn_eq_zero (hquiet (m + 1) (by omega) le_rfl), add_zero]
      exact ih fun k hk hkm => hquiet k hk (by omega)
  refine ⟨n, record, ⟨hn.trans hle, htouches, fun m hm ht => ?_⟩, hrecord, hhash, ?_⟩
  · refine hlast m ?_ ht
    by_contra hlt
    exact hquiet m (by omega) hm ht
  · exact hthrough ▸ hexact

section Invocations

variable {h : History} {input : Invocation} {db db' : Db}

/-- Where an invocation starts: what is done is projected, and the rows of what has been
touched so far are right. -/
structure Starts (h : History) (input : Invocation) (start : Start) : Prop where
  contributions : Projected h (fun n => n < start.first ∧ n ≤ input.blockNumber)
    start.written.contributions
  totals : ∀ id n, n < start.first → n ≤ input.blockNumber → Touches (h.events n) id →
    ∃ height, start.first = height + 1 ∧ height ≤ input.blockNumber ∧
      TotalsAt h height id (start.aggregates.lookup id)

theorem starts_of_outdated (hdb : db.Outdated) : Starts h input (startOf h db) := by
  have hnone : (db.checkpoint.filter fun c => c.algorithmVersion = algorithmVersion) = none :=
    Option.filter_eq_none_iff.mpr fun c hc => by simpa using hdb c hc
  have hquiet (id : Bytes32) (n : ℕ) (hn : n < h.activationBlock) :
      ¬ Touches (h.events n) id := by
    intro htouches
    obtain ⟨b, hb, hlogs⟩ := logs_of_touches htouches
    exact hlogs (h.quiet n hn b hb)
  rw [startOf, hnone]
  refine ⟨⟨fun id k row hrow => ?_, fun id n b hn hb htouches => ?_⟩,
    fun id n hn _ htouches => absurd htouches (hquiet id n hn)⟩
  · cases hrow
  · have hevents : h.events n = b.events := by rw [History.events, hb]; rfl
    exact absurd (hevents ▸ htouches) (hquiet id n hn.1)

theorem starts_of_current {height : ℕ} (hdb : Current h db height)
    (hle : height ≤ input.blockNumber) : Starts h input (startOf h db) := by
  obtain ⟨generation, k, -, hcheckpoint⟩ := hdb.checkpoint
  have hsome : (db.checkpoint.filter fun c => c.algorithmVersion = algorithmVersion)
      = some ⟨algorithmVersion, height + 1, generation, (height, k)⟩ := by
    rw [hcheckpoint]
    exact Option.filter_some_pos (decide_eq_true rfl)
  have hremoved : (db.contributions.entries.filter fun e => height + 1 ≤ e.2.blockNumber) = [] := by
    refine List.filter_eq_nil_iff.mpr fun e he => ?_
    have hrow : db.contributions.lookup (e.1.1, e.1.2) = some e.2 := AList.mem_lookup_iff.mpr he
    have := (hdb.contributions.sound _ _ _ hrow).1
    simp only [decide_eq_true_eq]
    omega
  rw [startOf, hsome]
  dsimp only
  rw [hremoved]
  refine ⟨hdb.contributions.congr fun n id _ => ?_, fun id n hn _ htouches => ?_⟩
  · dsimp only
    omega
  · dsimp only at hn ⊢
    exact ⟨height, rfl, hle, hdb.totals id n (by omega) htouches⟩

/-- **One invocation** leaves the tables projected through the block where it stops. -/
theorem Starts.projectBlocks {through : ℕ} (hstart : Starts h input (startOf h db))
    (hdistinct : input.Distinct)
    (hanchor : (h.block input.blockNumber).map ChainBlock.hash = some input.blockHash)
    (hdb : projectBlocks h input db = .ok (db', through)) :
    Current h db' through ∧ through ≤ input.blockNumber := by
  obtain ⟨written, hwritten, hdb⟩ := bind_eq_ok.mp hdb
  obtain ⟨rfl, rfl⟩ := Prod.mk.injEq .. ▸ Except.ok.inj hdb
  have hle := @throughOf_le h input (startOf h db).first
  have hstop := @throughOf_cases input (readBlocks h input (startOf h db).first)
  have hmem (n : ℕ) := @mem_projected h input (startOf h db).first n
  obtain ⟨hcontributions, haffected⟩ := hstart.contributions.blocks hdistinct nodup_projected
    (fun n hn hbefore => absurd ((hmem n).mp hn).1 (not_le.mpr hbefore.1)) hwritten
  generalize hthrough : throughOf input (readBlocks h input (startOf h db).first) = through at *
  -- the invocation stops at the anchor, or at one of the blocks that it reads
  have hblock : ∃ b, h.block through = some b := by
    rcases hstop with ⟨-, hread⟩ | ⟨-, rfl⟩
    · obtain ⟨-, -, b, hb, -⟩ := mem_eventBearing.mp (List.mem_of_mem_take hread)
      exact ⟨b, hb⟩
    · obtain ⟨b, hb, -⟩ := Option.map_eq_some_iff.mp hanchor
      exact ⟨b, hb⟩
  have hpast (n : ℕ) (hn : n < (startOf h db).first) (hnle : n ≤ input.blockNumber) :
      n ≤ through := by
    rcases hstop with ⟨-, hread⟩ | ⟨-, rfl⟩
    · exact hn.le.trans (mem_eventBearing.mp (List.mem_of_mem_take hread)).1
    · exact hnle
  have hprojected : Projected h (· ≤ through) written.contributions := by
    refine hcontributions.congr fun n id htouches => ?_
    rw [hmem]
    constructor
    · rintro (⟨hn, hnle⟩ | ⟨-, hn, -⟩)
      · exact hpast n hn hnle
      · exact hn
    · intro hn
      by_cases hfirst : (startOf h db).first ≤ n
      · exact .inr ⟨hfirst, hn, logs_of_touches htouches⟩
      · exact .inl ⟨by omega, hn.trans hle⟩
  refine ⟨⟨⟨input.generation, _, ?_, rfl⟩, hprojected, fun id n hn htouches => ?_⟩, hle⟩
  · obtain ⟨b, hb⟩ := hblock
    rw [hb]
    rfl
  · by_cases hid : id ∈ written.affected
    · exact hprojected.totalsAt_foldl hn htouches hid _
    · -- what touched the market was there before
      dsimp only
      rw [lookup_foldl_materialize hid]
      have hquiet (m : ℕ) (hfirst : (startOf h db).first ≤ m) (hm : m ≤ through) :
          ¬ Touches (h.events m) id := fun ht =>
        hid ((haffected id).mpr (.inr ⟨m, (hmem m).mpr ⟨hfirst, hm, logs_of_touches ht⟩, ht⟩))
      have hbefore : n < (startOf h db).first := not_le.mp fun hfirst => hquiet n hfirst hn htouches
      obtain ⟨height, hfirst, hheight, hrow⟩ :=
        hstart.totals id n hbefore (hn.trans hle) htouches
      exact hrow.mono (hpast height (by omega) hheight) fun m hm => hquiet m (by omega)

/-- **The transaction** of an invocation that follows a run. -/
theorem Sound.projectIn {through : ℕ} (hs : Sound h db)
    (hdb : projectIn h input db = .ok (db', through)) :
    Current h db' through ∧ through ≤ input.blockNumber := by
  obtain ⟨_, hmarkets, hdb⟩ := bind_eq_ok.mp hdb
  obtain ⟨_, hassert, hdb⟩ := bind_eq_ok.mp hdb
  obtain ⟨_, -, hdb⟩ := bind_eq_ok.mp hdb
  obtain ⟨_, hanchor, -⟩ := bind_eq_ok.mp hassert
  rw [revertIf_eq_ok, not_or, not_not] at hmarkets
  rw [revertIf_eq_ok, not_not] at hanchor
  split_ifs at hdb with hadvanced
  · obtain ⟨_, hrevision, hdb⟩ := bind_eq_ok.mp hdb
    obtain ⟨rfl, rfl⟩ := Prod.mk.injEq .. ▸ Except.ok.inj hdb
    rw [revertIf_eq_ok, not_not] at hrevision
    obtain ⟨c, hc, hadvanced⟩ := (Option.any_eq_true _ _).mp hadvanced
    obtain ⟨hversion, -⟩ := of_decide_eq_true hadvanced
    rcases hs with houtdated | ⟨height, hcurrent⟩
    · exact absurd hversion (houtdated c hc)
    · obtain ⟨generation, k, -, hcheckpoint⟩ := hcurrent.checkpoint
      rw [hcheckpoint] at hrevision
      obtain ⟨rfl, -⟩ := Prod.mk.injEq .. ▸ Option.some.inj hrevision
      exact ⟨hcurrent, le_rfl⟩
  · rcases hs with houtdated | ⟨height, hcurrent⟩
    · exact (starts_of_outdated houtdated).projectBlocks hmarkets.1 hanchor hdb
    · obtain ⟨generation, k, -, hcheckpoint⟩ := hcurrent.checkpoint
      rw [hcheckpoint, Option.any_some, decide_eq_true_iff] at hadvanced
      have hle : height ≤ input.blockNumber := by
        by_contra hlt
        exact hadvanced ⟨rfl, by dsimp only; omega⟩
      exact (starts_of_current hcurrent hle).projectBlocks hmarkets.1 hanchor hdb

/-- An invocation, whether it returns, asks to be continued or throws. -/
def Invoked (h : History) (db : Db) (input : Invocation) (db' : Db) : Prop :=
  (projectF72History h input db).2 = db'

/-- **The invariant is kept.** -/
theorem Sound.invoked (hs : Sound h db) (hdb : Invoked h db input db') : Sound h db' := by
  obtain rfl := hdb
  rw [projectF72History]
  split
  case h_1 => exact hs
  case h_2 db' through heq => exact .inr ⟨through, (hs.projectIn heq).1⟩

/-- An invocation that returns has projected the anchor. -/
theorem Sound.current_of_returned (hs : Sound h db)
    (hreturned : (projectF72History h input db).1 = .ok ()) :
    Current h (projectF72History h input db).2 input.blockNumber := by
  rw [projectF72History] at hreturned ⊢
  split at hreturned
  case h_1 => cases hreturned
  case h_2 db' through heq =>
    obtain ⟨hcurrent, hle⟩ := hs.projectIn heq
    have hge := not_lt.mp (revertIf_eq_ok.mp hreturned)
    obtain rfl := hle.antisymm hge
    exact hcurrent

/-! ### The read side -/

/-- **The read compares two blocks**: the one of the checkpoint, and the newest that touches
the market. -/
theorem Current.readsExactly_iff {height n : ℕ} {id : Bytes32} (hcurrent : Current h db height)
    (hn : n ≤ height) (htouches : Touches (h.events n) id) :
    ReadsExactly h db id height ↔ Touches (h.events height) id := by
  obtain ⟨generation, k, hk, hcheckpoint⟩ := hcurrent.checkpoint
  obtain ⟨newest, record, hnewest, hrecord, hhash, hexact⟩ :=
    hcurrent.totals id n hn htouches
  have hresolved : resolveHistoryCheckpoint h db = .ok (height, k) := by
    rw [resolveHistoryCheckpoint, orRevert_eq_ok, hcheckpoint]
    exact Option.filter_some_pos (decide_eq_true hk)
  have hread : readMemeFeeBurns h db id = (do
      throwIf ((height, k) ≠ (height, record.blockHash)) "Meme fee burn history is unavailable"
      return ⟨(height, k), height, record.payload⟩) := by
    rw [readMemeFeeBurns, hresolved, ok_bind, hrecord, orRevert, Option.elim_some, ok_bind]
  constructor
  · rintro ⟨read, hok, -, -⟩
    obtain ⟨_, hsame, -⟩ := bind_eq_ok.mp (hread ▸ hok)
    rw [revertIf_eq_ok, not_not, Prod.mk.injEq] at hsame
    rw [hsame.2, ← hhash] at hk
    obtain ⟨b, hb, hbhash⟩ := Option.map_eq_some_iff.mp (hk.trans hhash)
    obtain ⟨c, hc, hchash⟩ := Option.map_eq_some_iff.mp hhash
    rw [h.hash_injective _ _ b c hb hc (hbhash.trans hchash.symm)]
    exact hnewest.touches
  · intro hheight
    -- the newest block is the one of the checkpoint
    obtain rfl := hnewest.le.antisymm (hnewest.last height le_rfl hheight)
    obtain rfl := Option.some.inj (hk.symm.trans hhash)
    refine ⟨⟨(newest, record.blockHash), newest, record.payload⟩, ?_, rfl, hexact⟩
    rw [hread, throwIf, revertIf_neg (not_not.mpr rfl), ok_bind]
    rfl

theorem touches_of_createdAt {id : Bytes32} {n : ℕ} (hcreated : CreatedAt h id n) :
    Touches (h.events n) id := by
  obtain ⟨event, hmem, hcreates, hid⟩ := hcreated
  exact ⟨event, hmem, .inl hcreates, hid⟩

end Invocations

/-- **When the totals can be read.** After any run of invocations, one that returns for an
anchor leaves the totals of a market readable, and exact up to the anchor, if the block of
the anchor creates the market or burns its fees, and unreadable otherwise. -/
theorem burns_readable_iff (h : History) {start db : Db} {inputs : List Invocation}
    (hstart : start.Outdated) (hrun : Run (Invoked h) start inputs db) {input : Invocation}
    (hreturned : (projectF72History h input db).1 = .ok ()) {id : Bytes32} {n : ℕ}
    (hn : n ≤ input.blockNumber) (hcreated : CreatedAt h id n) :
    ReadsExactly h (projectF72History h input db).2 id input.blockNumber
      ↔ Touches (h.events input.blockNumber) id := by
  have hsound : Sound h db :=
    hrun.invariant (fun _ _ _ hs hstep => hs.invoked hstep) (.inl hstart)
  exact (hsound.current_of_returned hreturned).readsExactly_iff hn (touches_of_createdAt hcreated)

/-! ### A market whose fees are burned once -/

/-- A log of the block `1`. -/
def sampleLog (index : Fin 2) : RpcLog where
  address := 7
  blockHash := 1
  blockNumber := 1
  transactionHash := 5
  transactionIndex := 0
  logIndex := index
  transactionIndex_le := by decide
  logIndex_le := by
    have := index.isLt
    have : 1 ≤ maxSafeInteger := by decide
    omega

/-- The market is created. -/
def sampleCreation : DecodedProtocolEvent :=
  ⟨.other "TickerGardenFactoryV1", .other "MarketCreated", args [(.marketId, .bytes32 9)],
    sampleLog 0⟩

/-- Eleven tokens of the creator are burned. -/
def sampleBurn : DecodedProtocolEvent :=
  ⟨.protocolFeeVault, .memeFeesBurned,
    args [(.marketId, .bytes32 9), (.beneficiary, .address 4), (.role, .bigint 0),
      (.creatorEpoch, .bigint 1), (.token, .address 2), (.amount, .bigint 11)], sampleLog 1⟩

/-- Two blocks, the second of which is quiet. -/
def sampleHistory : History where
  activationBlock := 1
  block n :=
    if n = 1 then some ⟨1, [.source (some sampleCreation), .source (some sampleBurn)]⟩
    else if n = 2 then some ⟨2, []⟩ else none
  hash_injective m n b c hb hc heq := by
    split_ifs at hb hc <;> simp_all <;> (obtain rfl := hb; obtain rfl := hc; cases heq)
  quiet n hn b hb := by
    obtain rfl : n = 0 := by omega
    cases hb
  emitter n b hb event hmem hname := by
    split_ifs at hb with h₁ h₂
    · obtain rfl := Option.some.inj hb
      simp [ChainBlock.events, StoredLog.read] at hmem
      rcases hmem with rfl | rfl
      · cases hname
      · rfl
    · obtain rfl := Option.some.inj hb
      exact absurd hmem List.not_mem_nil

/-- The invocation for a block of it. -/
def sampleInvocation (n : ℕ) : Invocation where
  blockNumber := n
  blockHash := BitVec.ofNat 256 n
  generation := 0
  ingestion := some ⟨n + 1, 0⟩
  markets := [⟨9, 2, some true⟩]
  others _ := .ok ()

/-- Nothing was projected yet. -/
def emptyDb : Db := ⟨none, ∅, ∅⟩

theorem emptyDb_outdated : emptyDb.Outdated := fun _ hc => (nomatch hc)

/-- The tables after the first block. -/
def sampleDb : Db := (projectF72History sampleHistory (sampleInvocation 1) emptyDb).2

theorem sample_created : CreatedAt sampleHistory 9 1 :=
  ⟨sampleCreation, List.mem_cons_self, by decide, by decide⟩

theorem sample_returned : (projectF72History sampleHistory (sampleInvocation 1) emptyDb).1 = .ok () := by
  decide +kernel

theorem sample_returned_quiet :
    (projectF72History sampleHistory (sampleInvocation 2) sampleDb).1 = .ok () := by
  decide +kernel

/-- At the block of the burn the totals are read, and at the quiet block they are not. -/
theorem burns_readable_iff_sample :
    ReadsExactly sampleHistory sampleDb 9 1 ∧
    ¬ ReadsExactly sampleHistory
      (projectF72History sampleHistory (sampleInvocation 2) sampleDb).2 9 2 :=
  ⟨(burns_readable_iff sampleHistory emptyDb_outdated (.refl emptyDb) sample_returned le_rfl
      sample_created).mpr (touches_of_createdAt sample_created),
    fun hreads => absurd ((burns_readable_iff sampleHistory emptyDb_outdated
      (Run.single (e := sampleInvocation 1) rfl) sample_returned_quiet (by decide)
      sample_created).mp hreads) (by decide)⟩

/-- **A quiet anchor**: the market is created and its fees are burned in the first block, the
second block is projected after it, and then the totals are not served. -/
theorem quiet_anchor_unreadable :
    emptyDb.Outdated ∧ Run (Invoked sampleHistory) emptyDb [sampleInvocation 1] sampleDb ∧
    (projectF72History sampleHistory (sampleInvocation 2) sampleDb).1 = .ok () ∧
    CreatedAt sampleHistory 9 1 ∧
    ¬ ReadsExactly sampleHistory
      (projectF72History sampleHistory (sampleInvocation 2) sampleDb).2 9 2 := by
  refine ⟨emptyDb_outdated, Run.single rfl, sample_returned_quiet, sample_created, ?_⟩
  rintro ⟨read, hread, -⟩
  have herror : (readMemeFeeBurns sampleHistory
      (projectF72History sampleHistory (sampleInvocation 2) sampleDb).2 9).isOk = false := by
    decide +kernel
  rw [hread] at herror
  cases herror

end BurnTotals

end Backend

end TickerGarden
