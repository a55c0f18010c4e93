import Mathlib.Data.Prod.Lex
import TickerGarden.Backend.EventDecoding
import TickerGarden.Backend.ProjectionEffects

/-!
# Replaying the projection

What the Go backend has projected is a function of the events it has accepted: an event that fails
changes nothing, one that is repeated changes nothing, and the accepted events alone, in the order
they were accepted in and with any order of the maps, give the same tables
(`TickerGarden.Backend.EventProjection.projection_replays`).

The invariant of the runs (`TickerGarden.Backend.EventProjection.Sound`) has four parts, about the
accepted events and the tables: the **journal** of the accepted events, the **pairing** of fees and
swaps, the **credits** of the fees, and the **claims** with their totals. Each of them follows an
event by its effect.
-/

namespace TickerGarden

open Checked

namespace Backend

namespace EventProjection

/-! ### The journal -/

/-- A position comes behind another one, on its chain and with the hash of its block. -/
structure Follows (p q : Provenance) : Prop where
  chainId : q.chainId = p.chainId
  place : p.blockNumber < q.blockNumber ∨ p.blockNumber = q.blockNumber ∧
    p.blockHash = q.blockHash ∧ p.transactionIndex ≤ q.transactionIndex ∧ p.logIndex < q.logIndex

theorem Follows.trans {p q r : Provenance} (h : Follows p q) (h' : Follows q r) :
    Follows p r := by
  refine ⟨h'.chainId.trans h.chainId, ?_⟩
  rcases h.place with hlt | ⟨hblock, hhash, hindex, hlog⟩ <;>
    rcases h'.place with hlt' | ⟨hblock', hhash', hindex', hlog'⟩
  · exact Or.inl (hlt.trans hlt')
  · exact Or.inl (hblock' ▸ hlt)
  · exact Or.inl (hblock ▸ hlt')
  · exact Or.inr ⟨hblock.trans hblock', hhash.trans hhash', hindex.trans hindex',
      hlog.trans hlog'⟩

theorem follows_eq_ok {s : State} {at' : Provenance} {u : Unit} :
    s.follows at' = .ok u ↔ ∀ last, s.last = some last → Follows last at' := by
  rw [State.follows]
  cases s.last with
  | none => simp
  | some last =>
    dsimp only
    rw [revertIf_eq_ok]
    constructor
    · rintro h _ ⟨⟩
      refine ⟨by by_contra hne; exact h (Or.inl (Ne.symm hne)), ?_⟩
      by_contra hplace
      refine h (Or.inr ?_)
      by_cases hhash : last.blockHash = at'.blockHash
      · simp only [hhash, ne_eq, not_true, false_or, true_and] at hplace ⊢
        omega
      · simp only [hhash, ne_eq, not_false_iff, true_or, and_true]
        omega
    · intro h
      obtain ⟨hchain, hplace⟩ := h last rfl
      rintro (hne | hlt | ⟨hblock, hhash | hindex⟩)
      · exact hne hchain.symm
      · omega
      · rcases hplace with hlt | ⟨-, heq, -⟩
        · omega
        · exact hhash heq
      · omega

/-- The accepted events: which of them are known, and how they follow each other. -/
structure Journal (c : Codec) (acc : List Body) (s : State) : Prop where
  lawful : ∀ b ∈ acc, b.Lawful
  fingerprint : ∀ b ∈ acc, s.fingerprints.lookup b.eventKey = some (c.marshal b)
  accepted : ∀ k ∈ s.fingerprints, ∃ b ∈ acc, b.eventKey = k
  nodup : (acc.map Body.eventKey).Nodup
  last : s.last = acc.getLast?.map Body.provenance
  follows : acc.Pairwise fun b b' => Follows b.provenance b'.provenance

namespace Journal

variable {c : Codec} {acc : List Body} {s : State} {b : Body}

theorem fresh (h : Journal c acc s) (hb : s.fingerprints.lookup b.eventKey = none) {a : Body}
    (ha : a ∈ acc) : a.eventKey ≠ b.eventKey := by
  intro heq
  have hfp := h.fingerprint a ha
  rw [heq, hb] at hfp
  cases hfp

/-- **An event is accepted** behind all others. -/
theorem follows_all (h : Journal c acc s) {u : Unit} (hfollows : s.follows b.provenance = .ok u)
    {a : Body} (ha : a ∈ acc) : Follows a.provenance b.provenance := by
  rw [follows_eq_ok, h.last] at hfollows
  obtain ⟨l, last, rfl⟩ : ∃ l last, acc = l ++ [last] :=
    ⟨_, _, (List.dropLast_append_getLast (List.ne_nil_of_mem ha)).symm⟩
  have hlast := hfollows last.provenance (by simp)
  rcases List.mem_append.mp ha with hl | hl
  · exact ((List.pairwise_append.mp h.follows).2.2 a hl last List.mem_cons_self).trans hlast
  · obtain rfl := List.mem_singleton.mp hl
    exact hlast

theorem commit (h : Journal c acc s) (hb : b.Lawful)
    (hnew : s.fingerprints.lookup b.eventKey = none) {u : Unit}
    (hfollows : s.follows b.provenance = .ok u) (changes : Tables) :
    Journal c (acc ++ [b]) (s.commit b changes (c.marshal b)) where
  lawful := List.forall_mem_append.mpr ⟨h.lawful, List.forall_mem_singleton.mpr hb⟩
  fingerprint := by
    refine List.forall_mem_append.mpr ⟨fun a ha => ?_, List.forall_mem_singleton.mpr ?_⟩
    · rw [State.commit]
      exact (AList.lookup_insert_ne (h.fresh hnew ha)).trans (h.fingerprint a ha)
    · exact AList.lookup_insert _
  accepted k hk := by
    rcases (AList.mem_insert _).mp hk with rfl | hk
    · exact ⟨b, by simp, rfl⟩
    · obtain ⟨a, ha, heq⟩ := h.accepted k hk
      exact ⟨a, List.mem_append_left _ ha, heq⟩
  nodup := by
    rw [List.map_append, List.map_singleton]
    refine h.nodup.append (List.nodup_singleton _) ?_
    rw [List.disjoint_singleton, List.mem_map]
    rintro ⟨a, ha, heq⟩
    exact h.fresh hnew ha heq
  last := by
    rw [List.getLast?_concat]
    rfl
  follows := List.pairwise_append.mpr ⟨h.follows, List.pairwise_singleton _ _, fun a ha a' ha' =>
    List.mem_singleton.mp ha' ▸ h.follows_all hfollows ha⟩

/-- Two accepted events are the same, or one follows the other. -/
theorem trichotomy (h : Journal c acc s) {a a' : Body} (ha : a ∈ acc) (ha' : a' ∈ acc) :
    a = a' ∨ Follows a.provenance a'.provenance ∨ Follows a'.provenance a.provenance := by
  obtain ⟨i, hi, rfl⟩ := List.getElem_of_mem ha
  obtain ⟨j, hj, rfl⟩ := List.getElem_of_mem ha'
  have hfollows := List.pairwise_iff_getElem.mp h.follows
  rcases Nat.lt_trichotomy i j with hlt | rfl | hlt
  · exact Or.inr (Or.inl (hfollows i j hi hj hlt))
  · exact Or.inl rfl
  · exact Or.inr (Or.inr (hfollows j i hj hi hlt))

/-- The accepted events are of one chain. -/
theorem chainId_eq (h : Journal c acc s) {a a' : Body} (ha : a ∈ acc) (ha' : a' ∈ acc) :
    a.provenance.chainId = a'.provenance.chainId := by
  rcases h.trichotomy ha ha' with rfl | hfollows | hfollows
  · rfl
  · exact hfollows.chainId.symm
  · exact hfollows.chainId

/-- There is one hash for each block. -/
theorem blockHash_eq (h : Journal c acc s) {a a' : Body} (ha : a ∈ acc) (ha' : a' ∈ acc)
    (hblock : a.provenance.blockNumber = a'.provenance.blockNumber) :
    a.provenance.blockHash = a'.provenance.blockHash := by
  rcases h.trichotomy ha ha' with rfl | hfollows | hfollows
  · rfl
  · rcases hfollows.place with hlt | ⟨-, hhash, -⟩
    · omega
    · exact hhash
  · rcases hfollows.place with hlt | ⟨-, hhash, -⟩
    · omega
    · exact hhash.symm

/-- Accepted events with the same key are the same. -/
theorem eq_of_eventKey (h : Journal c acc s) {a a' : Body} (ha : a ∈ acc) (ha' : a' ∈ acc)
    (heq : a.eventKey = a'.eventKey) : a = a' :=
  List.inj_on_of_nodup_map h.nodup ha ha' heq

end Journal

/-! ### The pairing of fees and swaps -/

/-- A swap precedes a fee, in its pool and its transaction. -/
structure Precedes (w e : Body) : Prop where
  name : w.name = .swap
  pool : key [str w.args "id"] = key [str e.args "poolId"]
  transaction : w.provenance.transactionHash = e.provenance.transactionHash
  logIndex : w.provenance.logIndex < e.provenance.logIndex

/-- The row of a swap has a fee. -/
def Paired (m : Tables) (w e : Body) : Prop :=
  ∃ row, m.swaps.lookup w.eventKey = some row ∧ row.hookFeeEventKey = some e.eventKey ∧
    row.feeId = some e.feeKey

/-- The swaps of the accepted events, and the fees they have. -/
structure Pairing (acc : List Body) (m : Tables) : Prop where
  recorded : ∀ k row, m.swaps.lookup k = some row → row.eventKey = k ∧ ∃ w ∈ acc,
    w.eventKey = k ∧ w.name = .swap ∧ row.poolId = key [str w.args "id"] ∧
      row.provenance = w.provenance
  hooked : ∀ k row h, m.swaps.lookup k = some row → row.hookFeeEventKey = some h →
    ∃ e ∈ acc, e.eventKey = h
  once : ∀ k k' row row' h, m.swaps.lookup k = some row → m.swaps.lookup k' = some row' →
    row.hookFeeEventKey = some h → row'.hookFeeEventKey = some h → k = k'
  paired : ∀ e ∈ acc, e.name = .v4FeeAccrued → ∃ w ∈ acc, Precedes w e ∧ Paired m w e

namespace Pairing

variable {acc : List Body} {m n : Tables} {b : Body}

theorem empty : Pairing [] .empty where
  recorded _ _ h := nomatch h
  hooked _ _ _ h := nomatch h
  once _ _ _ _ _ h := nomatch h
  paired _ h := nomatch h

/-- No swap changes. -/
theorem same (hs : Pairing acc m) (h : n.swaps = m.swaps) (hname : b.name ≠ .v4FeeAccrued) :
    Pairing (acc ++ [b]) n where
  recorded k row hk := by
    rw [h] at hk
    obtain ⟨heq, w, hw, hrest⟩ := hs.recorded k row hk
    exact ⟨heq, w, List.mem_append_left _ hw, hrest⟩
  hooked k row h' hk hrow := by
    rw [h] at hk
    obtain ⟨e, he, heq⟩ := hs.hooked k row h' hk hrow
    exact ⟨e, List.mem_append_left _ he, heq⟩
  once k k' row row' h' hk hk' := by
    rw [h] at hk hk'
    exact hs.once k k' row row' h' hk hk'
  paired e he hv4 := by
    rcases List.mem_append.mp he with he | he
    · obtain ⟨w, hw, hprecedes, hpaired⟩ := hs.paired e he hv4
      refine ⟨w, List.mem_append_left _ hw, hprecedes, ?_⟩
      rw [Paired, h]
      exact hpaired
    · obtain rfl := List.mem_singleton.mp he
      exact absurd hv4 hname

/-- A swap comes in. -/
theorem swapped (hs : Pairing acc m) (hfresh : ∀ a ∈ acc, a.eventKey ≠ b.eventKey)
    (hname : b.name = .swap) (h : n.swaps = m.swaps.insert b.eventKey
      ⟨b.eventKey, key [str b.args "id"], b.args, b.provenance, none, none⟩) :
    Pairing (acc ++ [b]) n := by
  -- a row is the new one, or one that was there
  have hrows : ∀ k row, n.swaps.lookup k = some row →
      (k = b.eventKey ∧
        row = ⟨b.eventKey, key [str b.args "id"], b.args, b.provenance, none, none⟩) ∨
      m.swaps.lookup k = some row := by
    intro k row hk
    rw [h] at hk
    rcases eq_or_ne k b.eventKey with rfl | hne
    · rw [AList.lookup_insert] at hk
      exact Or.inl ⟨rfl, (Option.some.inj hk).symm⟩
    · rw [AList.lookup_insert_ne hne] at hk
      exact Or.inr hk
  constructor
  · intro k row hk
    rcases hrows k row hk with ⟨rfl, rfl⟩ | hk
    · exact ⟨rfl, b, by simp, rfl, hname, rfl, rfl⟩
    · obtain ⟨heq, w, hw, hrest⟩ := hs.recorded k row hk
      exact ⟨heq, w, List.mem_append_left _ hw, hrest⟩
  · intro k row h' hk hrow
    rcases hrows k row hk with ⟨rfl, rfl⟩ | hk
    · cases hrow
    · obtain ⟨e, he, heq⟩ := hs.hooked k row h' hk hrow
      exact ⟨e, List.mem_append_left _ he, heq⟩
  · intro k k' row row' h' hk hk' hrow hrow'
    rcases hrows k row hk with ⟨rfl, rfl⟩ | hk
    · cases hrow
    rcases hrows k' row' hk' with ⟨rfl, rfl⟩ | hk'
    · cases hrow'
    exact hs.once k k' row row' h' hk hk' hrow hrow'
  · intro e he hv4
    rcases List.mem_append.mp he with he | he
    · obtain ⟨w, hw, hprecedes, row, hrow, hhook⟩ := hs.paired e he hv4
      refine ⟨w, List.mem_append_left _ hw, hprecedes, row, ?_, hhook⟩
      rw [h, AList.lookup_insert_ne (hfresh w hw), hrow]
    · obtain rfl := List.mem_singleton.mp he
      exact nomatch hname.symm.trans hv4

/-- A fee is paired with a swap that has none. -/
theorem accrued (hs : Pairing acc m) (hfresh : ∀ a ∈ acc, a.eventKey ≠ b.eventKey) {k : String}
    {swap : SwapRow} (hlookup : m.swaps.lookup k = some swap)
    (hpool : swap.poolId = key [str b.args "poolId"])
    (htransaction : swap.provenance.transactionHash = b.provenance.transactionHash)
    (hindex : swap.provenance.logIndex < b.provenance.logIndex)
    (hunpaired : swap.hookFeeEventKey = none)
    (h : n.swaps = m.swaps.insert swap.eventKey (pairedRow swap b)) : Pairing (acc ++ [b]) n := by
  obtain ⟨rfl, w₀, hw₀, hkey, hswap, hpool₀, hprovenance⟩ := hs.recorded k swap hlookup
  -- a row is that of the swap, or another one that was there
  have hrows : ∀ k row, n.swaps.lookup k = some row →
      (k = swap.eventKey ∧ row = pairedRow swap b) ∨
      (k ≠ swap.eventKey ∧ m.swaps.lookup k = some row) := by
    intro k row hk
    rw [h] at hk
    rcases eq_or_ne k swap.eventKey with rfl | hne
    · rw [AList.lookup_insert] at hk
      exact Or.inl ⟨rfl, (Option.some.inj hk).symm⟩
    · rw [AList.lookup_insert_ne hne] at hk
      exact Or.inr ⟨hne, hk⟩
  -- no row had this fee before
  have hnone : ∀ k row, m.swaps.lookup k = some row → row.hookFeeEventKey ≠ some b.eventKey := by
    intro k row hk hrow
    obtain ⟨e, he, heq⟩ := hs.hooked k row _ hk hrow
    exact hfresh e he heq
  constructor
  · intro k row hk
    rcases hrows k row hk with ⟨rfl, rfl⟩ | ⟨-, hk⟩
    · exact ⟨rfl, w₀, List.mem_append_left _ hw₀, hkey, hswap, hpool₀, hprovenance⟩
    · obtain ⟨heq, w, hw, hrest⟩ := hs.recorded k row hk
      exact ⟨heq, w, List.mem_append_left _ hw, hrest⟩
  · intro k row h' hk hrow
    rcases hrows k row hk with ⟨rfl, rfl⟩ | ⟨-, hk⟩
    · exact ⟨b, by simp, Option.some.inj hrow⟩
    · obtain ⟨e, he, heq⟩ := hs.hooked k row h' hk hrow
      exact ⟨e, List.mem_append_left _ he, heq⟩
  · intro k k' row row' h' hk hk' hrow hrow'
    rcases hrows k row hk with ⟨rfl, rfl⟩ | ⟨-, hk⟩ <;>
      rcases hrows k' row' hk' with ⟨rfl, rfl⟩ | ⟨-, hk'⟩
    · rfl
    · obtain rfl := Option.some.inj hrow
      exact absurd hrow' (hnone k' row' hk')
    · obtain rfl := Option.some.inj hrow'
      exact absurd hrow (hnone k row hk)
    · exact hs.once k k' row row' h' hk hk' hrow hrow'
  · intro e he hv4
    rcases List.mem_append.mp he with he | he
    · obtain ⟨w, hw, hprecedes, row, hrow, hhook, hfee⟩ := hs.paired e he hv4
      refine ⟨w, List.mem_append_left _ hw, hprecedes, row, ?_, hhook, hfee⟩
      have hne : w.eventKey ≠ swap.eventKey := by
        intro heq
        rw [heq, hlookup] at hrow
        obtain rfl := Option.some.inj hrow
        rw [hunpaired] at hhook
        cases hhook
      rw [h, AList.lookup_insert_ne hne, hrow]
    · obtain rfl := List.mem_singleton.mp he
      refine ⟨w₀, List.mem_append_left _ hw₀, ⟨hswap, ?_, ?_, ?_⟩, pairedRow swap e, ?_, rfl, rfl⟩
      · rw [← hpool₀, hpool]
      · rw [← hprovenance, htransaction]
      · rw [← hprovenance]
        exact hindex
      · rw [hkey, h, AList.lookup_insert]

/-- **The step lemma.** -/
theorem step (hs : Pairing acc m) (hfresh : ∀ a ∈ acc, a.eventKey ≠ b.eventKey)
    (h : Effect b m n) : Pairing (acc ++ [b]) n := by
  cases h with
  | quiet hname h =>
    refine hs.same h.swaps fun heq => hname ?_
    rw [heq]
    decide
  | credited hname k v hnonce hpool hmarket h =>
    refine hs.same h.swaps fun heq => ?_
    rw [heq] at hname
    exact absurd hname (by decide)
  | claimed hname total count amount v htotal hcount hamount hclaimed hnumber h =>
    exact hs.same h.swaps fun heq => nomatch hname.symm.trans heq
  | swapped hname h => exact hs.swapped hfresh hname h.swaps
  | accrued hname k swap hconflict hmarket hlookup hpool htransaction hindex hunpaired h =>
    exact hs.accrued hfresh hlookup hpool htransaction hindex hunpaired h.swaps

end Pairing

/-! ### The credits of the fees -/

/-- Two fees have the same nonce, in the same market and the same pool. -/
structure SameNonce (a a' : Values) : Prop where
  nonce : field a "feeNonce" = field a' "feeNonce"
  market : equalFold (str a "marketId") (str a' "marketId") = true
  pool : equalFold (str a "poolId") (str a' "poolId") = true

theorem SameNonce.symm {a a' : Values} (h : SameNonce a a') : SameNonce a' a :=
  ⟨h.nonce.symm, equalFold_symm h.market, equalFold_symm h.pool⟩

theorem SameNonce.trans {a a' a'' : Values} (h : SameNonce a a') (h' : SameNonce a' a'') :
    SameNonce a a'' :=
  ⟨h.nonce.trans h'.nonce, equalFold_trans h.market h'.market, equalFold_trans h.pool h'.pool⟩

/-- The events are those of one contract: the identifier of a fee is computed from its pool and
its nonce. -/
def Authentic (l : List Body) : Prop :=
  ∀ e ∈ l, ∀ e' ∈ l, e.name = .v4FeeAccrued → e'.name = .v4FeeAccrued → e.feeKey = e'.feeKey →
    field e.args "feeNonce" = field e'.args "feeNonce" ∧
      equalFold (str e.args "poolId") (str e'.args "poolId") = true

/-- The credits of the accepted fees. A later event may change the row of a fee, but not what
tells it from the other fees of the market. -/
structure Credits (acc : List Body) (m : Tables) : Prop where
  credited : ∀ e ∈ acc, e.name = .v4FeeAccrued → ∃ row,
    (m.keyed .feeCredits).lookup e.feeKey = some row ∧ SameNonce row.values e.args
  nonce : ∀ e ∈ acc, ∀ e' ∈ acc, e.name = .v4FeeAccrued → e'.name = .v4FeeAccrued →
    e.feeKey ≠ e'.feeKey → ¬ SameNonce e.args e'.args

namespace Credits

variable {acc : List Body} {m n : Tables} {b : Body}

theorem empty : Credits [] .empty where
  credited _ h := nomatch h
  nonce _ h := nomatch h

/-- No fee accrues. -/
theorem other (hs : Credits acc m) (hname : b.name ≠ .v4FeeAccrued)
    (h : ∀ e ∈ acc, e.name = .v4FeeAccrued → ∃ row,
      (n.keyed .feeCredits).lookup e.feeKey = some row ∧ SameNonce row.values e.args) :
    Credits (acc ++ [b]) n := by
  have hold : ∀ e ∈ acc ++ [b], e.name = .v4FeeAccrued → e ∈ acc := by
    intro e he hv4
    rcases List.mem_append.mp he with he | he
    · exact he
    · obtain rfl := List.mem_singleton.mp he
      exact absurd hv4 hname
  exact ⟨fun e he hv4 => h e (hold e he hv4) hv4, fun e he e' he' hv4 hv4' =>
    hs.nonce e (hold e he hv4) e' (hold e' he' hv4') hv4 hv4'⟩

/-- A credit that is not a fee leaves the nonce of the row, and its market. -/
theorem sameNonce_credit {v : Values} {k : String} {e : Body} (he : e.Lawful)
    (hv4 : e.name = .v4FeeAccrued) {row : KeyedRow}
    (hrow : (m.keyed .feeCredits).lookup e.feeKey = some row) (hsame : SameNonce row.values e.args)
    (hnonce : v.lookup "feeNonce" = none) (hpool : v.lookup "poolId" = none)
    (hmarket : (∀ id : String, id.toList.head? = some '0' → k ≠ key [id]) ∨
      (str (values ((m.keyed .feeCredits).lookup k)) "marketId" ≠ "" →
        equalFold (str v "marketId")
          (str (values ((m.keyed .feeCredits).lookup k)) "marketId") = true))
    (hk : e.feeKey = k) :
    SameNonce (combine (values ((m.keyed .feeCredits).lookup k)) v) e.args := by
  subst hk
  obtain ⟨hne, hhead, -⟩ := he.accrued hv4
  rw [hrow] at hmarket ⊢
  refine SameNonce.trans ⟨field_combine_of_none hnonce, ?_, ?_⟩ hsame
  · rcases hmarket with hother | hmarket
    · exact absurd rfl (hother _ hhead)
    · refine equalFold_combine (hmarket fun hempty => hne ?_)
      have hfold := hsame.market
      rw [show str row.values "marketId" = "" from hempty] at hfold
      exact eq_empty_of_equalFold hfold
  · rw [str, field_combine_of_none hpool, ← str]
    exact equalFold_refl _

/-- A fee accrues: no other fee of its pool has its nonce. -/
theorem accrued (hs : Credits acc m) (hlawful : ∀ e ∈ acc ++ [b], e.Lawful)
    (hauthentic : Authentic (acc ++ [b])) (hname : b.name = .v4FeeAccrued)
    (hconflict : ∀ k row, (m.keyed .feeCredits).lookup k = some row →
      ¬ conflicts b.args k row.values)
    (hmarket : str (values ((m.keyed .feeCredits).lookup b.feeKey)) "marketId" ≠ "" →
      equalFold (str b.args "marketId")
        (str (values ((m.keyed .feeCredits).lookup b.feeKey)) "marketId") = true)
    (h : n.keyed .feeCredits = (m.keyed .feeCredits).insert b.feeKey
      (creditRow m b.feeKey (withSignature b.args b.signature) b.provenance)) :
    Credits (acc ++ [b]) n := by
  have hb : b ∈ acc ++ [b] := by simp
  obtain ⟨hne, -, hnonce, hpool⟩ := (hlawful b hb).accrued hname
  have hnew : SameNonce (creditRow m b.feeKey (withSignature b.args b.signature)
      b.provenance).values b.args := by
    have hread (k : String) (hk : k ≠ "lastEvent") (hsome : (b.args.lookup k).isSome = true) :
        field (creditRow m b.feeKey (withSignature b.args b.signature) b.provenance).values k
          = field b.args k := by
      rw [creditRow, field_combine_of_isSome (by rw [lookup_withSignature hk]; exact hsome),
        field_withSignature hk]
    refine ⟨hread _ (by decide) hnonce, ?_, ?_⟩
    · rw [str, hread _ (by decide) (isSome_of_str_ne hne), ← str]
      exact equalFold_refl _
    · rw [str, hread _ (by decide) hpool, ← str]
      exact equalFold_refl _
  -- one with the same key is the same fee
  have hsame : ∀ e ∈ acc, e.name = .v4FeeAccrued → e.feeKey = b.feeKey →
      SameNonce b.args e.args := by
    intro e he hv4 hkey
    obtain ⟨row, hrow, hcredited⟩ := hs.credited e he hv4
    obtain ⟨hmnonce, hmpool⟩ := hauthentic b hb e (List.mem_append_left _ he) hname hv4 hkey.symm
    refine ⟨hmnonce, ?_, hmpool⟩
    rw [← hkey, hrow] at hmarket
    refine equalFold_trans (hmarket fun hempty => ?_) hcredited.market
    have hfold := hcredited.market
    rw [show str row.values "marketId" = "" from hempty] at hfold
    exact ((hlawful e (List.mem_append_left _ he)).accrued hv4).1 (eq_empty_of_equalFold hfold)
  -- an accepted fee with another key has another nonce
  have hdistinct : ∀ e ∈ acc, e.name = .v4FeeAccrued → e.feeKey ≠ b.feeKey →
      ¬ SameNonce e.args b.args := by
    intro e he hv4 hkey hsame
    obtain ⟨row, hrow, hcredited⟩ := hs.credited e he hv4
    have hboth := hcredited.trans hsame
    exact hconflict _ row hrow ⟨hkey, hboth.nonce, hboth.market, hboth.pool⟩
  constructor
  · intro e he hv4
    rw [h]
    rcases eq_or_ne e.feeKey b.feeKey with heq | hkey
    · rw [heq, AList.lookup_insert]
      refine ⟨_, rfl, ?_⟩
      rcases List.mem_append.mp he with hold | hold
      · exact hnew.trans (hsame e hold hv4 heq)
      · obtain rfl := List.mem_singleton.mp hold
        exact hnew
    · rw [AList.lookup_insert_ne hkey]
      rcases List.mem_append.mp he with hold | hold
      · exact hs.credited e hold hv4
      · exact absurd (congrArg Body.feeKey (List.mem_singleton.mp hold)) hkey
  · intro e he e' he' hv4 hv4' hkey
    rcases List.mem_append.mp he with hold | hold <;>
      rcases List.mem_append.mp he' with hold' | hold'
    · exact hs.nonce e hold e' hold' hv4 hv4' hkey
    · rw [List.mem_singleton.mp hold'] at hkey ⊢
      exact hdistinct e hold hv4 hkey
    · rw [List.mem_singleton.mp hold] at hkey ⊢
      exact fun hsame => hdistinct e' hold' hv4' hkey.symm hsame.symm
    · rw [List.mem_singleton.mp hold, List.mem_singleton.mp hold'] at hkey
      exact absurd rfl hkey

/-- **The step lemma.** -/
theorem step (hs : Credits acc m) (hlawful : ∀ e ∈ acc ++ [b], e.Lawful)
    (hauthentic : Authentic (acc ++ [b])) (h : Effect b m n) : Credits (acc ++ [b]) n := by
  have hsame (hname : b.name ≠ .v4FeeAccrued)
      (h : n.keyed .feeCredits = m.keyed .feeCredits) : Credits (acc ++ [b]) n := by
    refine hs.other hname fun e he hv4 => ?_
    rw [h]
    exact hs.credited e he hv4
  cases h with
  | quiet hname h =>
    refine hsame (fun heq => hname ?_) (h.keyed .feeCredits (by decide))
    rw [heq]
    decide
  | credited hname k v hnonce hpool hmarket h =>
    refine hs.other (fun heq => ?_) fun e he hv4 => ?_
    · rw [heq] at hname
      exact absurd hname (by decide)
    · obtain ⟨row, hrow, hcredited⟩ := hs.credited e he hv4
      rw [h.keyed .feeCredits (by decide), keyed_put_self]
      rcases eq_or_ne e.feeKey k with heq | hne
      · rw [heq, AList.lookup_insert]
        exact ⟨_, rfl, sameNonce_credit (hlawful e (List.mem_append_left _ he)) hv4 hrow hcredited
          hnonce hpool hmarket heq⟩
      · rw [AList.lookup_insert_ne hne]
        exact ⟨row, hrow, hcredited⟩
  | claimed hname total count amount v htotal hcount hamount hclaimed hnumber h =>
    exact hsame (fun heq => nomatch hname.symm.trans heq) (h.keyed .feeCredits (by decide))
  | swapped hname h =>
    exact hsame (fun heq => nomatch hname.symm.trans heq) (h.keyed .feeCredits (by decide))
  | accrued hname k swap hconflict hmarket hlookup hpool htransaction hindex hunpaired h =>
    refine hs.accrued hlawful hauthentic hname hconflict hmarket ?_
    rw [h.keyed .feeCredits (by decide), keyed_setSwap, keyed_put_self]

end Credits

/-! ### The claims and their totals -/

/-- The claims that go to a row of the totals. -/
def claimsOf (m : Tables) (k : String) : List KeyedRow :=
  ((m.keyed .feeClaims).entries.map fun e => e.2).filter fun row => claimKey row.values = k

/-- The amount of a claim. -/
def amountOf (row : KeyedRow) : ℤ := (bigInt (str row.values "amount")).getD 0

/-- A row of the totals says what the claims come to. -/
structure Totals (m : Tables) (k : String) (v : Values) : Prop where
  amount : bigInt (str v "claimedAmount") = some ((claimsOf m k).map amountOf).sum
  count : bigInt (str v "claimCount") = some ((claimsOf m k).length : ℤ)

/-- The claims of the accepted events, and their totals. -/
structure Claims (acc : List Body) (m : Tables) : Prop where
  recorded : ∀ k row, (m.keyed .feeClaims).lookup k = some row →
    (∃ b ∈ acc, b.eventKey = k) ∧ (bigInt (str row.values "amount")).isSome = true
  totals : ∀ k row, (m.keyed .feeClaimTotals).lookup k = some row → Totals m k row.values
  absent : ∀ k, (m.keyed .feeClaimTotals).lookup k = none → claimsOf m k = []

theorem cumulative_eq_ok {v : Values} {k error : String} {n total : ℤ}
    (h : cumulative v k error = .ok total) (hn : bigInt (str v k) = some n) : total = n := by
  have hne : str v k ≠ "" := by
    intro heq
    rw [heq] at hn
    cases hn
  rw [cumulative, if_pos hne, orRevert_eq_ok, hn] at h
  exact (Option.some.inj h).symm

namespace Claims

variable {acc : List Body} {m n : Tables} {b : Body}

theorem empty : Claims [] .empty where
  recorded _ _ h := nomatch h
  totals _ _ h := nomatch h
  absent _ _ := rfl

/-- Nothing is claimed. -/
theorem same (hs : Claims acc m) (hclaims : n.keyed .feeClaims = m.keyed .feeClaims)
    (htotals : n.keyed .feeClaimTotals = m.keyed .feeClaimTotals) : Claims (acc ++ [b]) n := by
  have hof (k : String) : claimsOf n k = claimsOf m k := by rw [claimsOf, claimsOf, hclaims]
  refine ⟨fun k row hk => ?_, fun k row hk => ?_, fun k hk => ?_⟩
  · rw [hclaims] at hk
    obtain ⟨⟨a, ha, heq⟩, hamount⟩ := hs.recorded k row hk
    exact ⟨⟨a, List.mem_append_left _ ha, heq⟩, hamount⟩
  · rw [htotals] at hk
    obtain ⟨hamount, hcount⟩ := hs.totals k row hk
    exact ⟨by rw [hamount, hof], by rw [hcount, hof]⟩
  · rw [htotals] at hk
    rw [hof, hs.absent k hk]

/-- What a row of the totals has been, or that there was none, is what the claims come to. -/
theorem cumulative_totals (hs : Claims acc m) {k : String} {total count : ℤ} {error error' : String}
    (htotal : cumulative (values ((m.keyed .feeClaimTotals).lookup k)) "claimedAmount" error
      = .ok total)
    (hcount : cumulative (values ((m.keyed .feeClaimTotals).lookup k)) "claimCount" error'
      = .ok count) :
    total = ((claimsOf m k).map amountOf).sum ∧ count = ((claimsOf m k).length : ℤ) := by
  cases hk : (m.keyed .feeClaimTotals).lookup k with
  | none =>
    rw [hk] at htotal hcount
    rw [hs.absent k hk]
    exact ⟨(Except.ok.inj htotal).symm, (Except.ok.inj hcount).symm⟩
  | some row =>
    rw [hk] at htotal hcount
    obtain ⟨hamount, hnumber⟩ := hs.totals k row hk
    exact ⟨cumulative_eq_ok htotal hamount, cumulative_eq_ok hcount hnumber⟩

/-- A claim comes in. -/
theorem claimed (hs : Claims acc m) (hfresh : ∀ a ∈ acc, a.eventKey ≠ b.eventKey)
    {total count amount : ℤ} {v : Values} (htotal : cumulative (values
      ((m.keyed .feeClaimTotals).lookup (claimKey b.args))) "claimedAmount"
      "invalid cumulative claimed amount" = .ok total)
    (hcount : cumulative (values ((m.keyed .feeClaimTotals).lookup (claimKey b.args)))
      "claimCount" "invalid cumulative claim count" = .ok count)
    (hamount : bigInt (str b.args "amount") = some amount)
    (hclaimed : str v "claimedAmount" = toString (total + amount))
    (hnumber : str v "claimCount" = toString (count + 1))
    (hclaims : n.keyed .feeClaims
      = (m.keyed .feeClaims).insert b.eventKey ⟨b.eventKey, b.args, b.provenance⟩)
    (htotals : n.keyed .feeClaimTotals = (m.keyed .feeClaimTotals).insert (claimKey b.args)
      ⟨claimKey b.args, v, b.provenance⟩) : Claims (acc ++ [b]) n := by
  obtain ⟨rfl, rfl⟩ := hs.cumulative_totals htotal hcount
  have hnew : b.eventKey ∉ m.keyed .feeClaims := by
    intro hmem
    obtain ⟨row, hrow⟩ := Option.isSome_iff_exists.mp (AList.lookup_isSome.mpr hmem)
    obtain ⟨⟨a, ha, heq⟩, -⟩ := hs.recorded _ row hrow
    exact hfresh a ha heq
  have hof (k : String) : claimsOf n k = if claimKey b.args = k
      then ⟨b.eventKey, b.args, b.provenance⟩ :: claimsOf m k else claimsOf m k := by
    rw [claimsOf, hclaims, AList.entries_insert_of_notMem hnew, List.map_cons, List.filter_cons]
    simp only [decide_eq_true_eq]
    rfl
  refine ⟨fun k row hk => ?_, fun k row hk => ?_, fun k hk => ?_⟩
  · rw [hclaims] at hk
    rcases eq_or_ne k b.eventKey with rfl | hne
    · rw [AList.lookup_insert] at hk
      obtain rfl := Option.some.inj hk
      exact ⟨⟨b, by simp, rfl⟩, by rw [hamount]; rfl⟩
    · rw [AList.lookup_insert_ne hne] at hk
      obtain ⟨⟨a, ha, heq⟩, hsome⟩ := hs.recorded k row hk
      exact ⟨⟨a, List.mem_append_left _ ha, heq⟩, hsome⟩
  · rw [htotals] at hk
    rcases eq_or_ne k (claimKey b.args) with rfl | hne
    · rw [AList.lookup_insert] at hk
      obtain rfl := Option.some.inj hk
      have hone : amountOf ⟨b.eventKey, b.args, b.provenance⟩ = amount := by
        rw [amountOf, hamount]
        rfl
      refine ⟨?_, ?_⟩
      · rw [hclaimed, bigInt_toString, hof, if_pos rfl, List.map_cons, List.sum_cons, hone,
          add_comm]
      · rw [hnumber, bigInt_toString, hof, if_pos rfl, List.length_cons]
        rfl
    · rw [AList.lookup_insert_ne hne] at hk
      obtain ⟨htotal, hcount⟩ := hs.totals k row hk
      have hsame : claimsOf n k = claimsOf m k := by rw [hof, if_neg hne.symm]
      exact ⟨by rw [htotal, hsame], by rw [hcount, hsame]⟩
  · rw [htotals] at hk
    have hne : k ≠ claimKey b.args := by
      rintro rfl
      rw [AList.lookup_insert] at hk
      cases hk
    rw [AList.lookup_insert_ne hne] at hk
    rw [hof, if_neg hne.symm, hs.absent k hk]

/-- **The step lemma.** -/
theorem step (hs : Claims acc m) (hfresh : ∀ a ∈ acc, a.eventKey ≠ b.eventKey)
    (h : Effect b m n) : Claims (acc ++ [b]) n := by
  cases h with
  | quiet hname h =>
    exact hs.same (h.keyed .feeClaims (by decide)) (h.keyed .feeClaimTotals (by decide))
  | credited hname k v hnonce hpool hmarket h =>
    refine hs.same ((h.keyed .feeClaims (by decide)).trans ?_)
      ((h.keyed .feeClaimTotals (by decide)).trans ?_)
    · exact keyed_put_of_ne (by decide) ..
    · exact keyed_put_of_ne (by decide) ..
  | claimed hname total count amount v htotal hcount hamount hclaimed hnumber h =>
    refine hs.claimed hfresh htotal hcount hamount hclaimed hnumber ?_ ?_
    · rw [h.keyed .feeClaims (by decide), keyed_put_of_ne (by decide), keyed_put_self]
    · rw [h.keyed .feeClaimTotals (by decide), keyed_put_self, keyed_put_of_ne (by decide)]
  | swapped hname h =>
    exact hs.same (h.keyed .feeClaims (by decide)) (h.keyed .feeClaimTotals (by decide))
  | accrued hname k swap hconflict hmarket hlookup hpool htransaction hindex hunpaired h =>
    refine hs.same ((h.keyed .feeClaims (by decide)).trans ?_)
      ((h.keyed .feeClaimTotals (by decide)).trans ?_)
    · rw [keyed_setSwap]
      exact keyed_put_of_ne (by decide) ..
    · rw [keyed_setSwap]
      exact keyed_put_of_ne (by decide) ..

end Claims

/-! ### The invariant -/

/-- What is known of the events that are decoded: the log of a fee has its market, its pool and its
nonce, and an identifier in hexadecimal, and no other log of a credit has a pool or a nonce. -/
structure Codec.Lawful (c : Codec) : Prop where
  emitter : ∀ module log d, c.decode module log = .ok d → d.emitter ≠ ""
  credit : ∀ module log d, c.decode module log = .ok d → nameOf d.signature ∈ creditEvents →
    d.args.lookup "feeNonce" = none ∧ d.args.lookup "poolId" = none
  accrued : ∀ module log d, c.decode module log = .ok d → nameOf d.signature = .v4FeeAccrued →
    str d.args "marketId" ≠ "" ∧ (str d.args "feeId").toList.head? = some '0' ∧
      (d.args.lookup "feeNonce").isSome = true ∧ (d.args.lookup "poolId").isSome = true

/-- An entry of the catalog from which a log is decoded as `Codec.Lawful` says. -/
def Definition.Lawful (d : Definition) : Prop :=
  (nameOf d.signature ∈ creditEvents →
    ∀ p ∈ d.inputs, p.name ≠ "feeNonce" ∧ p.name ≠ "poolId") ∧
  (nameOf d.signature = .v4FeeAccrued →
    (∀ p ∈ d.inputs, p.name = "marketId" ∨ p.name = "feeId" → p.type = "bytes32") ∧
    ∀ k ∈ ["marketId", "feeId", "feeNonce", "poolId"], ∃ p ∈ d.inputs, p.name = k)

instance (d : Definition) : Decidable d.Lawful := inferInstanceAs (Decidable (_ ∧ _))

namespace Decoded.Of

variable {entries : List Definition} {e : Decoded} {d : Definition}

theorem lookup_eq_none (h : e.Of entries d) {k : String} (hk : ∀ p ∈ d.inputs, p.name ≠ k) :
    e.args.lookup k = none := by
  cases hvalue : e.args.lookup k with
  | none => rfl
  | some v =>
    obtain ⟨p, hp, hname, -⟩ := h.typed k v hvalue
    exact absurd hname (hk p hp)

/-- An argument whose parameters all are of thirty-two bytes, in hexadecimal. -/
theorem str_eq (h : e.Of entries d) {k : String} (hk : ∃ p ∈ d.inputs, p.name = k)
    (htype : ∀ p ∈ d.inputs, p.name = k → p.type = "bytes32") :
    ∃ digits, str e.args k = "0x" ++ digits := by
  obtain ⟨p, hp, rfl⟩ := hk
  obtain ⟨v, hv⟩ := Option.isSome_iff_exists.mp (h.complete p hp)
  obtain ⟨q, hq, hname, raw, hword⟩ := h.typed _ v hv
  rw [htype q hq hname] at hword
  obtain ⟨digits, rfl⟩ := word_bytes32 hword
  exact ⟨digits, by rw [str, field, hv]; rfl⟩

end Decoded.Of

/-- **The catalog makes the decoding lawful.** -/
theorem Codec.lawful_of_catalog {c : Codec} {entries : List Definition}
    (hdecode : c.decode = EventProjection.decode (load entries)) (hentries : ∀ d ∈ entries, d.Lawful) :
    c.Lawful where
  emitter module log e h := by
    rw [hdecode] at h
    obtain ⟨d, hd⟩ := decode_spec h
    exact hd.emitter
  credit module log e h hname := by
    rw [hdecode] at h
    obtain ⟨d, hd⟩ := decode_spec h
    rw [hd.signature] at hname
    have hnone := (hentries d hd.declared).1 hname
    exact ⟨hd.lookup_eq_none fun p hp => (hnone p hp).1,
      hd.lookup_eq_none fun p hp => (hnone p hp).2⟩
  accrued module log e h hname := by
    rw [hdecode] at h
    obtain ⟨d, hd⟩ := decode_spec h
    rw [hd.signature] at hname
    obtain ⟨htype, hparameters⟩ := (hentries d hd.declared).2 hname
    have hsome : ∀ k ∈ ["marketId", "feeId", "feeNonce", "poolId"],
        (e.args.lookup k).isSome = true := by
      intro k hk
      obtain ⟨p, hp, rfl⟩ := hparameters k hk
      exact hd.complete p hp
    obtain ⟨market, hmarket⟩ := hd.str_eq (hparameters "marketId" (by decide))
      fun p hp hp' => htype p hp (Or.inl hp')
    obtain ⟨fee, hfee⟩ := hd.str_eq (hparameters "feeId" (by decide))
      fun p hp hp' => htype p hp (Or.inr hp')
    refine ⟨?_, ?_, hsome "feeNonce" (by decide), hsome "poolId" (by decide)⟩
    · rw [hmarket]
      intro hempty
      have hlist := congrArg String.toList hempty
      rw [String.toList_append] at hlist
      cases hlist
    · rw [hfee, String.toList_append]
      rfl

theorem lawful_parse {c : Codec} (hc : c.Lawful) {input : Input} {b : Body}
    (h : parse c input = .ok b) : b.Lawful := by
  simp only [parse, bind_eq_ok] at h
  obtain ⟨n, -, ti, -, li, -, _, -, d, hd, observations, -, hb⟩ := h
  obtain rfl := Except.ok.inj hb
  exact ⟨hc.emitter _ _ d hd, ⟨input.log.transactionHash, rfl, rfl⟩, hc.credit _ _ d hd,
    hc.accrued _ _ d hd⟩

/-- **The invariant.** -/
structure Sound (c : Codec) (acc : List Body) (s : State) : Prop where
  journal : Journal c acc s
  pairing : Pairing acc s.tables
  credits : Credits acc s.tables
  claims : Claims acc s.tables

/-- `s.changes = nil`. -/
abbrev State.forget (s : State) : State := { s with changes := none }

namespace Sound

variable {c : Codec} {acc : List Body} {s t : State} {b : Body} {o o' : MapOrder} {input : Input}

theorem new (c : Codec) : Sound c [] .new where
  journal := ⟨(fun _ h => nomatch h), (fun _ h => nomatch h),
    (fun k h => absurd h (AList.notMem_empty k)), List.nodup_nil, rfl, List.Pairwise.nil⟩
  pairing := .empty
  credits := .empty
  claims := .empty

theorem forget (h : Sound c acc s) : Sound c acc s.forget :=
  ⟨⟨h.journal.lawful, h.journal.fingerprint, h.journal.accepted, h.journal.nodup, h.journal.last,
    h.journal.follows⟩, h.pairing, h.credits, h.claims⟩

theorem distinctSwaps (h : Sound c acc s) : DistinctSwaps s.tables := by
  intro k k' row row' hk hk' htransaction hindex
  obtain ⟨-, w, hw, rfl, -, -, hp⟩ := h.pairing.recorded k row hk
  obtain ⟨-, w', hw', rfl, -, -, hp'⟩ := h.pairing.recorded k' row' hk'
  obtain ⟨hash, hhash, heq⟩ := (h.journal.lawful w hw).eventKey
  obtain ⟨hash', hhash', heq'⟩ := (h.journal.lawful w' hw').eventKey
  rw [hp, hp'] at htransaction hindex
  rw [heq, heq', h.journal.chainId_eq hw hw', hindex]
  refine key_congr ?_
  simp only [List.map_cons, List.map_nil, hhash, hhash', htransaction]

/-- An input is accepted, or is a duplicate, or fails, in any order of the maps. -/
theorem accept_order (o o' : MapOrder) (h : Sound c acc s) (hc : c.Lawful)
    (hcurves : DistinctCurves s.tables) (input : Input) : s.accept c o input = s.accept c o' input := by
  rw [State.accept, State.accept]
  cases hb : parse c input with
  | error e => rfl
  | ok b =>
    rw [ok_bind, ok_bind]
    have hrun : Stage.run o ⟨s, .empty, b.provenance⟩ b
        = Stage.run o' ⟨s, .empty, b.provenance⟩ b :=
      run_order hcurves h.distinctSwaps (lawful_parse hc hb).emitter
    rw [hrun]

end Sound

/-- **What `Apply` can do** with an input that does not fail. -/
theorem accept_cases {c : Codec} {o : MapOrder} {s t : State} {input : Input} {r : Outcome}
    (h : s.accept c o input = .ok (r, t)) : ∃ b, parse c input = .ok b ∧
      (r = .duplicate ∧ t = s ∨
        r = .applied ∧ s.fingerprints.lookup b.eventKey = none ∧
          (∃ u, s.follows b.provenance = .ok u) ∧
          ∃ x, Stage.run o ⟨s, .empty, b.provenance⟩ b = .ok x ∧
            t = s.commit b x.changes (c.marshal b)) := by
  rw [State.accept] at h
  obtain ⟨b, hb, h⟩ := bind_eq_ok.mp h
  refine ⟨b, hb, ?_⟩
  split at h
  · obtain ⟨_, -, h⟩ := bind_eq_ok.mp h
    cases h
    exact Or.inl ⟨rfl, rfl⟩
  · next hnone =>
    obtain ⟨u, hfollows, h⟩ := bind_eq_ok.mp h
    obtain ⟨x, hx, h⟩ := bind_eq_ok.mp h
    cases h
    exact Or.inr ⟨rfl, hnone, ⟨u, hfollows⟩, x, hx, rfl⟩

/-- **The step lemma**: an event that is applied keeps the invariant. -/
theorem Sound.accept {c : Codec} (hc : c.Lawful) {acc : List Body} {s t : State}
    (hs : Sound c acc s) {o : MapOrder} {input : Input}
    (h : s.accept c o input = .ok (.applied, t)) : ∃ b, parse c input = .ok b ∧
      (Authentic (acc ++ [b]) → Sound c (acc ++ [b]) t) := by
  obtain ⟨b, hb, ⟨hr, -⟩ | ⟨-, hnew, ⟨u, hfollows⟩, x, hx, rfl⟩⟩ := accept_cases h
  · cases hr
  refine ⟨b, hb, fun hauthentic => ?_⟩
  have hlawful := lawful_parse hc hb
  have hjournal := hs.journal.commit hlawful hnew hfollows x.changes
  have hview : (⟨s, .empty, b.provenance⟩ : Stage).view = s.tables := rfl
  obtain ⟨heffect, hstate⟩ := effect_run hlawful rfl hview hx
  have htables : x.view = (s.commit b x.changes (c.marshal b)).tables := by
    rw [Stage.view, hstate]
    rfl
  rw [hview, htables] at heffect
  have hfresh : ∀ a ∈ acc, a.eventKey ≠ b.eventKey := fun a ha => hs.journal.fresh hnew ha
  exact ⟨hjournal, hs.pairing.step hfresh heffect,
    hs.credits.step hjournal.lawful hauthentic heffect, hs.claims.step hfresh heffect⟩

/-! ### Runs -/

/-- A call of `Apply`, and what it returns. -/
structure Call where
  order : MapOrder
  input : Input
  result : Except String Outcome

/-- A call is made in a state where distinct markets have distinct curves. -/
def Step (c : Codec) (s : State) (call : Call) (t : State) : Prop :=
  DistinctCurves s.tables ∧ s.apply c call.order call.input = (call.result, t)

/-- The inputs that were applied. -/
def accepted (calls : List Call) : List Input :=
  calls.filterMap fun call => if call.result.toOption = some .applied then some call.input else none

/-- The events of some inputs. -/
def events (c : Codec) (inputs : List Input) : List Body :=
  inputs.filterMap fun input => (parse c input).toOption

/-- The chains that are projected. -/
def Supported (input : Input) : Prop :=
  ¬ (input.chainId ≠ 4663 ∧ input.chainId ≠ 46630 ∧ input.chainId ≠ 421614)

section Apply

variable {c : Codec} {o : MapOrder} {s t : State} {input : Input}

theorem apply_supported (h : Supported input) : s.apply c o input
    = match s.forget.accept c o input with
      | .ok (outcome, t) => (.ok outcome, t)
      | .error e => (.error e, s.forget) :=
  if_neg h

/-- **A call that fails** leaves the tables, the last position and the accepted events. -/
theorem apply_error {e : String} (h : s.apply c o input = (.error e, t)) :
    t = s ∨ t = s.forget := by
  by_cases hsupported : Supported input
  · rw [apply_supported hsupported] at h
    split at h
    · cases h
    · cases h
      exact Or.inr rfl
  · rw [State.apply, if_pos (not_not.mp hsupported)] at h
    cases h
    exact Or.inl rfl

/-- A call that does not fail is one of an input on a supported chain. -/
theorem apply_ok {r : Outcome} (h : s.apply c o input = (.ok r, t)) :
    Supported input ∧ s.forget.accept c o input = .ok (r, t) := by
  by_cases hsupported : Supported input
  · rw [apply_supported hsupported] at h
    refine ⟨hsupported, ?_⟩
    split at h
    · next haccept =>
      cases h
      exact haccept
    · cases h
  · rw [State.apply, if_pos (not_not.mp hsupported)] at h
    cases h

/-- A call of a duplicate. -/
theorem apply_duplicate (h : s.apply c o input = (.ok .duplicate, t)) : t = s.forget := by
  obtain ⟨b, -, ⟨-, rfl⟩ | ⟨hr, -⟩⟩ := accept_cases (apply_ok h).2
  · rfl
  · cases hr

/-- **An input that was accepted is a duplicate**, in every later state. -/
theorem apply_repeated {acc : List Body} {b : Body} (hs : Sound c acc s)
    (hsupported : Supported input) (hb : parse c input = .ok b) (hmem : b ∈ acc) :
    s.apply c o input = (.ok .duplicate, s.forget) := by
  have hlookup : s.forget.fingerprints.lookup b.provenance.eventKey = some (c.marshal b) :=
    hs.journal.fingerprint b hmem
  have haccept : s.forget.accept c o input = .ok (.duplicate, s.forget) := by
    rw [State.accept, hb, ok_bind, hlookup]
    dsimp only
    rw [revertIf_neg (not_not.mpr rfl), ok_bind]
    rfl
  rw [apply_supported hsupported, haccept]

end Apply

/-- Two states differ at most in the changes of the last call. -/
def SameFacts (s t : State) : Prop := s.forget = t.forget

/-- The accepted inputs give the same state again, whatever the orders of the maps are. -/
def Replays (c : Codec) (inputs : List Input) (s : State) : Prop :=
  ∀ steps : List (MapOrder × Input), steps.map Prod.snd = inputs →
    ∃ t, replay c steps = .ok t ∧ SameFacts t s

/-- The step of a replay. -/
theorem replay_concat {c : Codec} {steps : List (MapOrder × Input)} {t u : State} {o : MapOrder}
    {input : Input} {r : Outcome} (h : replay c steps = .ok t)
    (happly : t.apply c o input = (.ok r, u)) : replay c (steps ++ [(o, input)]) = .ok u := by
  rw [replay] at h ⊢
  rw [List.foldlM_append, h, ok_bind, List.foldlM_cons, happly]
  rfl

/-- What holds of a run: the invariant, and that its accepted inputs replay. -/
structure Projecting (c : Codec) (inputs : List Input) (s : State) : Prop where
  supported : ∀ input ∈ inputs, Supported input ∧ ∃ b, parse c input = .ok b
  sound : Sound c (events c inputs) s
  replays : Replays c inputs s

namespace Projecting

variable {c : Codec} {inputs : List Input} {s t : State} {o : MapOrder} {input : Input}

theorem new (c : Codec) : Projecting c [] .new where
  supported _ h := nomatch h
  sound := .new c
  replays steps h := by
    obtain rfl := List.map_eq_nil_iff.mp h
    exact ⟨.new, rfl, rfl⟩

theorem sameFacts (h : Projecting c inputs s) (heq : t = s ∨ t = s.forget) :
    Projecting c inputs t := by
  rcases heq with rfl | rfl
  · exact h
  · exact ⟨h.supported, h.sound.forget, h.replays⟩

theorem events_concat {b : Body} (hb : parse c input = .ok b) :
    events c (inputs ++ [input]) = events c inputs ++ [b] := by
  rw [events, List.filterMap_append, List.filterMap_cons, hb]
  rfl

theorem applied (hc : c.Lawful) (h : Projecting c inputs s) (hcurves : DistinctCurves s.tables)
    (hauthentic : Authentic (events c (inputs ++ [input])))
    (happly : s.apply c o input = (.ok .applied, t)) : Projecting c (inputs ++ [input]) t := by
  obtain ⟨hsupported, haccept⟩ := apply_ok happly
  obtain ⟨b, hb, hsound⟩ := h.sound.forget.accept hc haccept
  rw [events_concat hb] at hauthentic
  refine ⟨?_, ?_, fun steps hsteps => ?_⟩
  · exact List.forall_mem_append.mpr ⟨h.supported, List.forall_mem_singleton.mpr
      ⟨hsupported, b, hb⟩⟩
  · rw [events_concat hb]
    exact hsound hauthentic
  · obtain ⟨front, back, rfl, hfront, hback⟩ := List.map_eq_append_iff.mp hsteps
    obtain ⟨⟨o', i⟩, rfl, rfl⟩ := List.map_eq_singleton_iff.mp hback
    obtain ⟨u, hu, hfacts⟩ := h.replays front hfront
    refine ⟨t, replay_concat (r := .applied) hu ?_, rfl⟩
    rw [apply_supported hsupported, hfacts, h.sound.forget.accept_order o' o hc hcurves,
      haccept]

/-- **The step lemma.** -/
theorem step (hc : c.Lawful) {calls : List Call} {call : Call}
    (hauthentic : Authentic (events c (accepted (calls ++ [call]))))
    (h : Projecting c (accepted calls) s) (hstep : Step c s call t) :
    Projecting c (accepted (calls ++ [call])) t := by
  obtain ⟨hcurves, happly⟩ := hstep
  have hconcat : accepted (calls ++ [call]) = accepted calls ++
      if call.result.toOption = some .applied then [call.input] else [] := by
    rw [accepted, List.filterMap_append, List.filterMap_cons, List.filterMap_nil, accepted]
    split_ifs <;> rfl
  rw [hconcat] at hauthentic ⊢
  cases hr : call.result with
  | error e =>
    rw [hr] at happly
    rw [if_neg (fun h => nomatch h), List.append_nil]
    exact h.sameFacts (apply_error happly)
  | ok r =>
    rw [hr] at happly hauthentic
    cases r with
    | duplicate =>
      rw [if_neg (fun h => nomatch h), List.append_nil]
      exact h.sameFacts (Or.inr (apply_duplicate happly))
    | applied =>
      have hresult : (Except.ok Outcome.applied : Except String Outcome).toOption = some .applied :=
        rfl
      rw [if_pos hresult] at hauthentic ⊢
      exact h.applied hc hcurves hauthentic happly

/-- **The run lemma.** -/
theorem of_run (hc : c.Lawful) {calls : List Call} (h : Transition.Run (Step c) .new calls s)
    (hauthentic : Authentic (events c (accepted calls))) : Projecting c (accepted calls) s := by
  revert hauthentic
  refine h.invariant_history
    (I := fun calls s => Authentic (events c (accepted calls)) → Projecting c (accepted calls) s)
    (fun calls s call t ih hstep hauthentic => ?_) fun _ => .new c
  refine step hc hauthentic (ih fun e he e' he' => ?_) hstep
  have hsub : ∀ e ∈ events c (accepted calls), e ∈ events c (accepted (calls ++ [call])) := by
    intro e he
    rw [accepted, List.filterMap_append, events, List.filterMap_append]
    exact List.mem_append_left _ he
  exact hauthentic e (hsub e he) e' (hsub e' he')

end Projecting

/-! ### The projection -/

/-- The place of an event in its chain. -/
def position (b : Body) : ℕ ×ₗ ℕ ×ₗ ℕ :=
  toLex (b.provenance.blockNumber, toLex (b.provenance.transactionIndex, b.provenance.logIndex))

theorem Follows.position_lt {b b' : Body} (h : Follows b.provenance b'.provenance) :
    position b < position b' := by
  rw [position, position, Prod.Lex.toLex_lt_toLex, Prod.Lex.toLex_lt_toLex]
  rcases h.place with hlt | ⟨hblock, -, hindex, hlog⟩
  · exact Or.inl hlt
  · rcases hindex.lt_or_eq with hlt | heq
    · exact Or.inr ⟨hblock, Or.inl hlt⟩
    · exact Or.inr ⟨hblock, Or.inr ⟨heq, hlog⟩⟩

/-- What the accepted inputs have made of the tables. -/
structure Projected (c : Codec) (inputs : List Input) (s : State) : Prop where
  /-- Every accepted input has an event. -/
  decoded : ∀ input ∈ inputs, ∃ b ∈ events c inputs, parse c input = .ok b
  /-- The accepted inputs alone give the same tables. -/
  replays : ∀ steps : List (MapOrder × Input), steps.map Prod.snd = inputs →
    ∃ t, replay c steps = .ok t ∧ t.snapshot = s.snapshot ∧ t.fingerprints = s.fingerprints
  /-- The events are in the order of their places. -/
  ordered : (events c inputs).Pairwise fun b b' => position b < position b'
  /-- There is one hash for each block. -/
  blockHash : ∀ b ∈ events c inputs, ∀ b' ∈ events c inputs,
    b.provenance.blockNumber = b'.provenance.blockNumber →
      b.provenance.blockHash = b'.provenance.blockHash
  /-- Every fee has a swap of its own. -/
  paired : ∀ e ∈ events c inputs, e.name = .v4FeeAccrued → ∃ w ∈ events c inputs,
    Precedes w e ∧ Paired s.tables w e ∧ ∀ w' ∈ events c inputs, Paired s.tables w' e → w' = w
  /-- No swap has two fees. -/
  pairedOnce : ∀ w, ∀ e ∈ events c inputs, ∀ e' ∈ events c inputs, Paired s.tables w e →
    Paired s.tables w e' → e = e'
  /-- A nonce of a pool is that of one fee. -/
  nonces : ∀ e ∈ events c inputs, ∀ e' ∈ events c inputs, e.name = .v4FeeAccrued →
    e'.name = .v4FeeAccrued → e.feeKey ≠ e'.feeKey → ¬ SameNonce e.args e'.args
  /-- A claim has an amount. -/
  amounts : ∀ k row, (s.tables.keyed .feeClaims).lookup k = some row →
    (bigInt (str row.values "amount")).isSome = true
  /-- A total is that of its claims. -/
  totals : ∀ k row, (s.tables.keyed .feeClaimTotals).lookup k = some row →
    Totals s.tables k row.values

theorem Projecting.projected {c : Codec} {inputs : List Input} {s : State}
    (h : Projecting c inputs s) : Projected c inputs s where
  decoded input hinput := by
    obtain ⟨-, b, hb⟩ := h.supported input hinput
    exact ⟨b, List.mem_filterMap.mpr ⟨input, hinput, by rw [hb]; rfl⟩, hb⟩
  replays steps hsteps := by
    obtain ⟨t, ht, hfacts⟩ := h.replays steps hsteps
    have hsnapshot : t.forget.snapshot = s.forget.snapshot := congrArg State.snapshot hfacts
    have hfingerprints : t.forget.fingerprints = s.forget.fingerprints :=
      congrArg State.fingerprints hfacts
    exact ⟨t, ht, hsnapshot, hfingerprints⟩
  ordered := h.sound.journal.follows.imp Follows.position_lt
  blockHash b hb b' hb' := h.sound.journal.blockHash_eq hb hb'
  paired e he hv4 := by
    obtain ⟨w, hw, hprecedes, hpaired⟩ := h.sound.pairing.paired e he hv4
    refine ⟨w, hw, hprecedes, hpaired, ?_⟩
    rintro w' hw' ⟨row', hrow', hhook', -⟩
    obtain ⟨row, hrow, hhook, -⟩ := hpaired
    exact h.sound.journal.eq_of_eventKey hw' hw
      (h.sound.pairing.once _ _ _ _ _ hrow' hrow hhook' hhook)
  pairedOnce w e he e' he' := by
    rintro ⟨row, hrow, hhook, -⟩ ⟨row', hrow', hhook', -⟩
    obtain rfl := Option.some.inj (hrow.symm.trans hrow')
    exact h.sound.journal.eq_of_eventKey he he' (Option.some.inj (hhook.symm.trans hhook'))
  nonces := h.sound.credits.nonce
  amounts k row hk := (h.sound.claims.recorded k row hk).2
  totals := h.sound.claims.totals

/-- **The projection is atomic and can be replayed.** In every state of a run, a call that fails
changes neither the tables nor the set of the accepted events, an accepted input is a duplicate
when it comes again, and the tables are what the accepted inputs make of them. -/
theorem projection_replays {c : Codec} (hc : c.Lawful) {calls : List Call} {s : State}
    (h : Transition.Run (Step c) .new calls s)
    (hauthentic : Authentic (events c (calls.map Call.input))) :
    (∀ o input e t, s.apply c o input = (.error e, t) →
      t.snapshot = s.snapshot ∧ t.fingerprints = s.fingerprints) ∧
    (∀ o, ∀ input ∈ accepted calls, ∃ t, s.apply c o input = (.ok .duplicate, t) ∧
      t.snapshot = s.snapshot ∧ t.fingerprints = s.fingerprints) ∧
    Projected c (accepted calls) s := by
  have hsub : ∀ e ∈ events c (accepted calls), e ∈ events c (calls.map Call.input) := by
    intro e he
    obtain ⟨input, hinput, hb⟩ := List.mem_filterMap.mp he
    obtain ⟨call, hcall, hinput⟩ := List.mem_filterMap.mp hinput
    refine List.mem_filterMap.mpr ⟨input, ?_, hb⟩
    split_ifs at hinput
    obtain rfl := Option.some.inj hinput
    exact List.mem_map_of_mem hcall
  have hprojecting := Projecting.of_run hc h fun e he e' he' =>
    hauthentic e (hsub e he) e' (hsub e' he')
  refine ⟨fun o input e t happly => ?_, fun o input hinput => ?_, hprojecting.projected⟩
  · rcases apply_error happly with rfl | rfl
    · exact ⟨rfl, rfl⟩
    · exact ⟨rfl, rfl⟩
  · obtain ⟨hsupported, b, hb⟩ := hprojecting.supported input hinput
    exact ⟨s.forget, apply_repeated hprojecting.sound hsupported hb
      (List.mem_filterMap.mpr ⟨input, hinput, by rw [hb]; rfl⟩), rfl, rfl⟩

/-! ### A swap and its fee -/

namespace Sample

/-- Maps are gone through in the order of their entries. -/
def order : MapOrder := ⟨id, fun l => List.Perm.refl l⟩

/-- The entries of the catalog for swaps, for the fees of pools, and for the credits of fees. -/
def catalog : List Definition :=
  [{ signature := "Swap(bytes32,address,int128,int128,uint160,uint128,int24,uint24)"
     modules := ["UniswapV4PoolManager"]
     topic0 := "0x40e9cecb9f5f1f1c5b9c97dec2917b7ee92e57ba5563708daca94dd84ad7112f"
     inputs := [⟨"id", "bytes32", true⟩, ⟨"sender", "address", true⟩, ⟨"amount0", "int128", false⟩,
       ⟨"amount1", "int128", false⟩, ⟨"sqrtPriceX96", "uint160", false⟩,
       ⟨"liquidity", "uint128", false⟩, ⟨"tick", "int24", false⟩, ⟨"fee", "uint24", false⟩] },
   { signature :=
       "V4FeeAccrued(bytes32,bytes32,address,uint64,bytes32,uint256,uint256,uint256,uint256)"
     modules := ["TickerGardenMemeHook"]
     topic0 := "0xb06bb5629ec989e42326bc66c7833534217922250376ca82b6ddc2eb64ffd9f3"
     inputs := [⟨"marketId", "bytes32", true⟩, ⟨"poolId", "bytes32", true⟩,
       ⟨"feeAsset", "address", true⟩, ⟨"feeNonce", "uint64", false⟩, ⟨"feeId", "bytes32", false⟩,
       ⟨"base", "uint256", false⟩, ⟨"totalFee", "uint256", false⟩, ⟨"lpAmount", "uint256", false⟩,
       ⟨"nonLpAmount", "uint256", false⟩] },
   { signature := "CurveFeesSwept(bytes32,uint32,address,uint64,bytes32,uint256,uint256,uint256)"
     modules := ["ProtocolFeeVault"]
     topic0 := "0x74ff98d50b10b051bb8632dddd1bb7b925b3da0c76a1f066dc1b74540466aad3"
     inputs := [⟨"marketId", "bytes32", true⟩, ⟨"creatorEpoch", "uint32", true⟩,
       ⟨"quoteAsset", "address", true⟩, ⟨"sweepNonce", "uint64", false⟩,
       ⟨"feeId", "bytes32", false⟩, ⟨"amount", "uint256", false⟩,
       ⟨"creatorAmount", "uint256", false⟩, ⟨"platformAmount", "uint256", false⟩] },
   { signature := "FeeBucketsCredited(bytes32,uint32,address,bytes32,uint256,uint256,uint256,uint256)"
     modules := ["ProtocolFeeVault"]
     topic0 := "0x5997e5c831b830c03431dc3a01b35ae67d443a0dc87e5a2f79a4608b23512c76"
     inputs := [⟨"marketId", "bytes32", true⟩, ⟨"creatorEpoch", "uint32", true⟩,
       ⟨"feeAsset", "address", true⟩, ⟨"feeId", "bytes32", false⟩,
       ⟨"creatorAmount", "uint256", false⟩, ⟨"stakerAmount", "uint256", false⟩,
       ⟨"platformAmount", "uint256", false⟩, ⟨"activeStock", "uint256", false⟩] },
   { signature := "StakerFeeCredited(bytes32,address,bytes32,uint256,uint256,uint256)"
     modules := ["MemeStockGauge"]
     topic0 := "0x12bdf514488be4ad7e85b3a5f1efa02fad0e6e7455bae64c2da7cddca9ea5750"
     inputs := [⟨"marketId", "bytes32", true⟩, ⟨"feeAsset", "address", true⟩,
       ⟨"feeId", "bytes32", true⟩, ⟨"amount", "uint256", false⟩,
       ⟨"accumulatorDelta", "uint256", false⟩, ⟨"indexRemainder", "uint256", false⟩] }]

/-- Logs are decoded by the catalog, and observations are taken as they are; the text of an event is
its signature with its key. -/
def codec : Codec where
  decode := decode (load catalog)
  normalize l := .ok l
  marshal b := b.signature ++ b.provenance.eventKey

theorem lawful : codec.Lawful := Codec.lawful_of_catalog rfl (by decide +kernel)

/-- A number as a word, in hexadecimal. -/
def wordText (n : ℕ) : String :=
  let digits := Nat.toDigits 16 n
  String.ofList (List.replicate (64 - digits.length) '0' ++ digits)

/-- A log of a contract, at a position of the transaction. -/
def input (module address topic0 logIndex : String) (topics data : List ℕ) : Input where
  chainId := 4663
  module := module
  log := {
    address := address
    topics := topic0 :: topics.map fun n => "0x" ++ wordText n
    data := String.join ("0x" :: data.map wordText)
    blockNumber := "0x10"
    blockHash := "0x0000000000000000000000000000000000000000000000000000000000000bb0"
    transactionHash := "0x00000000000000000000000000000000000000000000000000000000000000dd"
    transactionIndex := "0x0"
    logIndex := logIndex
    removed := false }
  observations := []

/-- A swap of the pool `0xaa`: a thousand of the first asset for nine hundred and ninety of the
second one. -/
def swap : Input :=
  input "UniswapV4PoolManager" "0x0000000000000000000000000000000000000004"
    "0x40e9cecb9f5f1f1c5b9c97dec2917b7ee92e57ba5563708daca94dd84ad7112f" "0x0" [0xaa, 0x0b]
    [2 ^ 256 - 1000, 990, 2 ^ 96, 10 ^ 6, 2 ^ 256 - 1, 3000]

/-- The fee of the swap, with the nonce one. -/
def fee : Input :=
  input "TickerGardenMemeHook" "0x0000000000000000000000000000000000000005"
    "0xb06bb5629ec989e42326bc66c7833534217922250376ca82b6ddc2eb64ffd9f3" "0x1" [1, 0xaa, 2]
    [1, 0xfe, 1000, 10, 3, 7]

/-- An input is applied in a state. -/
def call (s : State) (i : Input) : Call := ⟨order, i, (s.apply codec order i).1⟩

/-- The state after it. -/
def next (s : State) (i : Input) : State := (s.apply codec order i).2

/-- The state after the swap, -/
def afterSwap : State := next .new swap
/-- and after the fee. -/
def afterFee : State := next afterSwap fee

theorem step {s : State} (i : Input) (h : s.tables.markets.entries.length = 0) :
    Step codec s (call s i) (next s i) := by
  refine ⟨fun k k' row row' hk => ?_, rfl⟩
  have hempty : s.tables.markets.entries = [] := List.length_eq_zero_iff.mp h
  rw [AList.lookup, hempty] at hk
  cases hk

/-- The two calls. -/
def calls : List Call := [call .new swap, call afterSwap fee]

theorem applied : (State.new.apply codec order swap).1.toOption = some .applied ∧
    afterSwap.tables.markets.entries.length = 0 ∧
    (afterSwap.apply codec order fee).1.toOption = some .applied := by
  decide +kernel

theorem run : Transition.Run (Step codec) .new calls afterFee := by
  have hswap : Step codec .new (call .new swap) afterSwap := step swap rfl
  have hfee : Step codec afterSwap (call afterSwap fee) afterFee := step fee applied.2.1
  exact ((Transition.Run.refl State.new).snoc hswap).snoc hfee

theorem accepted_cons {s : State} {i : Input} (calls : List Call)
    (h : (s.apply codec order i).1.toOption = some .applied) :
    accepted (call s i :: calls) = i :: accepted calls := by
  rw [accepted, List.filterMap_cons, call, if_pos h]
  rfl

theorem accepted_calls : accepted calls = [swap, fee] := by
  rw [calls, accepted_cons _ applied.1, accepted_cons _ applied.2.2]
  rfl

theorem name_of_swap {e : Body} (h : parse codec swap = .ok e) : e.name = .swap := by
  have hname : (parse codec swap).toOption.map Body.name = some .swap := by decide +kernel
  rw [h] at hname
  exact Option.some.inj hname

/-- There is one fee, so that no two have one identifier. -/
theorem authentic : Authentic (events codec [swap, fee]) := by
  have hfee : ∀ e ∈ events codec [swap, fee], e.name = .v4FeeAccrued → parse codec fee = .ok e := by
    intro e he hname
    obtain ⟨i, hi, he⟩ := List.mem_filterMap.mp he
    have hparse : parse codec i = .ok e := by
      cases h : parse codec i with
      | error error => rw [h] at he; cases he
      | ok b => rw [h] at he; exact congrArg Except.ok (Option.some.inj he)
    rcases List.mem_pair.mp hi with rfl | rfl
    · rw [name_of_swap hparse] at hname
      cases hname
    · exact hparse
  intro e he e' he' hname hname' _
  obtain rfl := Except.ok.inj ((hfee e he hname).symm.trans (hfee e' he' hname'))
  exact ⟨rfl, equalFold_refl _⟩

end Sample

theorem projection_replays_sample :
    Projected Sample.codec [Sample.swap, Sample.fee] Sample.afterFee := by
  have h := (projection_replays Sample.lawful Sample.run Sample.authentic).2.2
  rwa [Sample.accepted_calls] at h

end EventProjection

end Backend

end TickerGarden
