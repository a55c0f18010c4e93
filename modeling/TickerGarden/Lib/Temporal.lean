import Mathlib.Data.List.Nodup
import Mathlib.Data.List.Perm.Subperm
import Mathlib.Order.Basic
import Mathlib.Data.Nat.Basic
import Mathlib.Tactic.Common

/-!
# Tables with a history

A **version** of a row is its value under a key, with the times from which and to which it is
valid; a version without an end is **open**. A table that keeps its history is a list of
versions. What it said at a time is `Temporal.read`: the values that were valid then.

It changes in two ways: versions are closed (`Temporal.close`) and new ones are opened
(`Temporal.opened`). If both happen at the present, the past stays readable
(`Temporal.read_close_of_lt`, `Temporal.read_opened_of_lt`), and what is read at present is
what was open before, except what is closed, and what is opened (`Temporal.read_change`).

`Temporal.Sound` says that all that has happened to a table lies in the past of a time, and that
a key has one open version at most.
-/

namespace Temporal

variable {κ β : Type}

/-- A value of a key, valid from a time and, once it is closed, to a time. -/
structure Version (κ β : Type) where
  key : κ
  validFrom : ℕ
  validTo : Option ℕ
  value : β
deriving DecidableEq

/-- The version is valid at a time. -/
def Version.ValidAt (v : Version κ β) (m : ℕ) : Prop :=
  v.validFrom ≤ m ∧ (v.validTo = none ∨ ∃ t ∈ v.validTo, m < t)

instance (v : Version κ β) (m : ℕ) : Decidable (v.ValidAt m) := inferInstanceAs (Decidable (_ ∧ _))

/-- What a version says. -/
def Version.entry (v : Version κ β) : κ × β := (v.key, v.value)

/-- **What the table said** at a time. -/
def read (rows : List (Version κ β)) (m : ℕ) : List (κ × β) :=
  (rows.filter fun v => v.ValidAt m).map Version.entry

/-- Close the versions that satisfy a condition. -/
def close (p : Version κ β → Prop) [DecidablePred p] (h : ℕ) (rows : List (Version κ β)) :
    List (Version κ β) :=
  rows.map fun v => if p v then { v with validTo := some h } else v

/-- New versions. -/
def opened (h : ℕ) (xs : List (κ × β)) : List (Version κ β) := xs.map fun x => ⟨x.1, h, none, x.2⟩

theorem mem_read {rows : List (Version κ β)} {m : ℕ} {x : κ × β} :
    x ∈ read rows m ↔ ∃ v ∈ rows, v.ValidAt m ∧ v.entry = x := by
  simp [read, and_assoc]

@[simp] theorem read_append (rows rows' : List (Version κ β)) (m : ℕ) :
    read (rows ++ rows') m = read rows m ++ read rows' m := by
  rw [read, List.filter_append, List.map_append]
  rfl

/-! ### Closing -/

section Close

variable {p q : Version κ β → Prop} [DecidablePred p] [DecidablePred q] {h m : ℕ}
  {rows : List (Version κ β)}

theorem mem_close {v : Version κ β} : v ∈ close p h rows ↔
    (∃ w ∈ rows, p w ∧ v = { w with validTo := some h }) ∨ (v ∈ rows ∧ ¬ p v) := by
  simp only [close, List.mem_map]
  constructor
  · rintro ⟨w, hw, rfl⟩
    split_ifs with hp
    · exact .inl ⟨w, hw, hp, rfl⟩
    · exact .inr ⟨hw, hp⟩
  · rintro (⟨w, hw, hp, rfl⟩ | ⟨hv, hp⟩)
    · exact ⟨w, hw, if_pos hp⟩
    · exact ⟨v, hv, if_neg hp⟩

theorem close_append (rows' : List (Version κ β)) :
    close p h (rows ++ rows') = close p h rows ++ close p h rows' := List.map_append

/-- What satisfies the condition nowhere is not touched. -/
theorem close_eq_self (hp : ∀ v ∈ rows, ¬ p v) : close p h rows = rows := by
  rw [close]
  refine (List.map_congr_left fun v hv => if_neg (hp v hv)).trans (List.map_id'' (fun _ => rfl) _)

/-- Closing by one condition and then by another; the second asks for what is open. -/
theorem close_close (hq : ∀ v, q v → v.validTo = none) :
    close q h (close p h rows) = close (fun v => p v ∨ q v) h rows := by
  rw [close, close, close, List.map_map]
  refine List.map_congr_left fun v _ => ?_
  by_cases hp : p v
  · have hnot : ¬ q { v with validTo := some h } := fun hqv => by cases hq _ hqv
    simp [hp, hnot]
  · simp [hp]

theorem close_congr (hpq : ∀ v ∈ rows, p v ↔ q v) : close p h rows = close q h rows := by
  refine List.map_congr_left fun v hv => ?_
  simp only [hpq v hv]

/-- **The past stays readable**: what is closed at a time was valid before it. -/
theorem read_close_of_lt (hp : ∀ v ∈ rows, p v → v.validTo = none) (hm : m < h) :
    read (close p h rows) m = read rows m := by
  induction rows with
  | nil => rfl
  | cons v rows ih =>
    have hrows := ih fun w hw => hp w (List.mem_cons_of_mem v hw)
    have hv := hp v List.mem_cons_self
    simp only [close, read, List.map_cons, List.filter_cons] at hrows ⊢
    by_cases hpv : p v
    · have hiff : Version.ValidAt { v with validTo := some h } m ↔ v.ValidAt m := by
        simp [Version.ValidAt, hv hpv, hm]
      rw [if_pos hpv]
      simp only [hiff]
      split_ifs
      · rw [List.map_cons, List.map_cons, hrows]
        rfl
      · exact hrows
    · rw [if_neg hpv]
      split_ifs
      · rw [List.map_cons, List.map_cons, hrows]
      · exact hrows

/-- What is closed is not read any more. -/
theorem read_close_self :
    read (close p h rows) h = (rows.filter fun v => v.ValidAt h ∧ ¬ p v).map Version.entry := by
  induction rows with
  | nil => rfl
  | cons v rows ih =>
    simp only [close, read, List.map_cons, List.filter_cons] at ih ⊢
    by_cases hpv : p v
    · have hnot : ¬ Version.ValidAt { v with validTo := some h } h := by
        simp [Version.ValidAt]
      simpa [hpv, hnot] using ih
    · by_cases hvalid : v.ValidAt h
      · simpa [hpv, hvalid] using ih
      · simpa [hpv, hvalid] using ih

end Close

/-! ### Opening -/

theorem mem_opened {h : ℕ} {xs : List (κ × β)} {v : Version κ β} :
    v ∈ opened h xs ↔ v.validFrom = h ∧ v.validTo = none ∧ v.entry ∈ xs := by
  simp only [opened, List.mem_map]
  constructor
  · rintro ⟨x, hx, rfl⟩
    exact ⟨rfl, rfl, hx⟩
  · rintro ⟨hfrom, hto, hmem⟩
    refine ⟨_, hmem, ?_⟩
    cases v
    subst hfrom hto
    rfl

theorem opened_append (h : ℕ) (xs ys : List (κ × β)) :
    opened h (xs ++ ys) = opened h xs ++ opened h ys := List.map_append

/-- What is opened at a time is not read before it. -/
theorem read_opened_of_lt {h m : ℕ} (hm : m < h) (xs : List (κ × β)) : read (opened h xs) m = [] := by
  rw [List.eq_nil_iff_forall_not_mem]
  intro x hx
  obtain ⟨v, hv, hvalid, -⟩ := mem_read.mp hx
  rw [mem_opened] at hv
  have := hvalid.1
  omega

/-- What is opened is read. -/
theorem read_opened (h : ℕ) (xs : List (κ × β)) : read (opened h xs) h = xs := by
  induction xs with
  | nil => rfl
  | cons x xs ih =>
    have hvalid : Version.ValidAt (⟨x.1, h, none, x.2⟩ : Version κ β) h := ⟨le_rfl, .inl rfl⟩
    simp only [opened, read, List.map_cons, List.filter_cons, hvalid, decide_true, if_true] at ih ⊢
    rw [ih]
    rfl

/-! ### Soundness -/

/-- **All that has happened lies in the past** of a time, and a key has one open version. -/
structure Sound (rows : List (Version κ β)) (h : ℕ) : Prop where
  validFrom_le : ∀ v ∈ rows, v.validFrom ≤ h
  validTo_le : ∀ v ∈ rows, ∀ t ∈ v.validTo, v.validFrom < t ∧ t ≤ h
  nodup : ((rows.filter fun v => v.validTo = none).map Version.key).Nodup

namespace Sound

variable {rows : List (Version κ β)} {h h' : ℕ} {p : Version κ β → Prop} [DecidablePred p]

theorem nil (h : ℕ) : Sound ([] : List (Version κ β)) h := ⟨by simp, by simp, by simp⟩

theorem mono (hs : Sound rows h) (hle : h ≤ h') : Sound rows h' :=
  ⟨fun v hv => (hs.validFrom_le v hv).trans hle,
    fun v hv t ht => ⟨(hs.validTo_le v hv t ht).1, (hs.validTo_le v hv t ht).2.trans hle⟩, hs.nodup⟩

/-- **What is valid at present is what is open.** -/
theorem validAt_iff (hs : Sound rows h) (hle : h ≤ h') {v : Version κ β} (hv : v ∈ rows) :
    v.ValidAt h' ↔ v.validTo = none := by
  constructor
  · rintro ⟨-, hopen | ⟨t, ht, hlt⟩⟩
    · exact hopen
    · have := (hs.validTo_le v hv t ht).2
      omega
  · exact fun hopen => ⟨(hs.validFrom_le v hv).trans hle, .inl hopen⟩

/-- The present lasts. -/
theorem read_eq (hs : Sound rows h) (hle : h ≤ h') : read rows h' = read rows h := by
  rw [read, read]
  congr 1
  refine List.filter_congr fun v hv => ?_
  simp only [hs.validAt_iff hle hv, hs.validAt_iff le_rfl hv]

/-- A key is read once. -/
theorem nodup_read (hs : Sound rows h) : ((read rows h).map Prod.fst).Nodup := by
  have heq : (rows.filter fun v => v.ValidAt h) = rows.filter fun v => v.validTo = none :=
    List.filter_congr fun v hv => by simp only [hs.validAt_iff le_rfl hv]
  rw [read, heq, List.map_map]
  exact hs.nodup

theorem close (hs : Sound rows h) (hp : ∀ v ∈ rows, p v → v.validFrom < h) :
    Sound (close p h rows) h := by
  refine ⟨fun v hv => ?_, fun v hv t ht => ?_, ?_⟩
  · rcases mem_close.mp hv with ⟨w, hw, -, rfl⟩ | ⟨hv, -⟩
    · exact hs.validFrom_le w hw
    · exact hs.validFrom_le v hv
  · rcases mem_close.mp hv with ⟨w, hw, hpw, rfl⟩ | ⟨hv, -⟩
    · obtain rfl := Option.some.inj ht
      exact ⟨hp w hw hpw, le_rfl⟩
    · exact hs.validTo_le v hv t ht
  · refine hs.nodup.sublist ?_
    rw [Temporal.close, List.filter_map, List.map_map]
    have hsub : (rows.filter ((fun v => decide (v.validTo = none)) ∘
        fun v => if p v then { v with validTo := some h } else v)).Sublist
        (rows.filter fun v => v.validTo = none) := by
      refine List.monotone_filter_right rows fun v hv => ?_
      simp only [Function.comp_apply, decide_eq_true_eq] at hv ⊢
      split_ifs at hv
      exact hv
    have hkey : (Version.key ∘ fun v => if p v then { v with validTo := some h } else v)
        = Version.key := by
      funext v
      rw [Function.comp_apply]
      split_ifs <;> rfl
    rw [hkey]
    exact hsub.map Version.key

/-- A version of a key that has none is opened. -/
theorem snoc (hs : Sound rows h) {x : κ × β} (hx : ∀ v ∈ rows, v.key = x.1 → v.validTo ≠ none) :
    Sound (rows ++ [⟨x.1, h, none, x.2⟩]) h := by
  refine ⟨fun v hv => ?_, fun v hv t ht => ?_, ?_⟩
  · rcases List.mem_append.mp hv with hv | hv
    · exact hs.validFrom_le v hv
    · obtain rfl := List.mem_singleton.mp hv
      exact le_rfl
  · rcases List.mem_append.mp hv with hv | hv
    · exact hs.validTo_le v hv t ht
    · obtain rfl := List.mem_singleton.mp hv
      cases ht
  · have hlast : ([⟨x.1, h, none, x.2⟩] : List (Version κ β)).filter (fun v => v.validTo = none)
        = [⟨x.1, h, none, x.2⟩] := rfl
    rw [List.filter_append, hlast, List.map_append, List.nodup_append]
    refine ⟨hs.nodup, List.nodup_singleton _, ?_⟩
    intro k hk k' hk'
    obtain ⟨v, hv, rfl⟩ := List.mem_map.mp hk
    obtain rfl := List.mem_singleton.mp hk'
    obtain ⟨hv, hopen⟩ := List.mem_filter.mp hv
    exact fun heq => hx v hv heq (of_decide_eq_true hopen)

/-- What is opened in a sound table has each key once. -/
theorem nodup_opened {xs : List (κ × β)} (hs : Sound (rows ++ opened h xs) h') :
    (xs.map Prod.fst).Nodup := by
  have hopen : (opened h xs).filter (fun v => v.validTo = none) = opened h xs :=
    List.filter_eq_self.mpr fun v hv => decide_eq_true (mem_opened.mp hv).2.1
  have hnodup := hs.nodup
  rw [List.filter_append, hopen, List.map_append, List.nodup_append] at hnodup
  have hkeys : (opened h xs).map Version.key = xs.map Prod.fst := by
    rw [opened, List.map_map]
    rfl
  exact hkeys ▸ hnodup.2.1

theorem perm {rows' : List (Version κ β)} (hs : Sound rows h) (hp : rows.Perm rows') :
    Sound rows' h :=
  ⟨fun v hv => hs.validFrom_le v (hp.mem_iff.mpr hv),
    fun v hv => hs.validTo_le v (hp.mem_iff.mpr hv),
    ((hp.filter _).map _).nodup_iff.mp hs.nodup⟩

end Sound

theorem read_perm {rows rows' : List (Version κ β)} (hp : rows.Perm rows') (m : ℕ) :
    (read rows m).Perm (read rows' m) := (hp.filter _).map _

/-- **What is read at present** after a change: what was open and is not closed, and what is
opened. -/
theorem read_change {rows : List (Version κ β)} {h h' : ℕ} {p : Version κ β → Prop}
    [DecidablePred p] (hs : Sound rows h) (hlt : h ≤ h') (xs : List (κ × β)) :
    read (close p h' rows ++ opened h' xs) h'
      = (rows.filter fun v => v.validTo = none ∧ ¬ p v).map Version.entry ++ xs := by
  rw [read_append, read_opened, read_close_self]
  congr 2
  refine List.filter_congr fun v hv => ?_
  simp only [hs.validAt_iff hlt hv]

end Temporal
