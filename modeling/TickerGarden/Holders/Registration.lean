import TickerGarden.Holders.Accounting

/-!
# What the registration of a market fixes

A market is registered with the distributor once. Its assets, its fee mode and the accounts it
excludes do not change after that, whatever is called (`settled_of_run`). Its two assets are different
(`quote_ne_token`), and the list of its excluded accounts has all of them
(`mem_exclusions_of_excluded`).
-/

namespace TickerGarden

open Checked Function

namespace HolderRewards

variable {W : Type} {platform : Platform} {calls : Externals W} {self : Address}
  {s s' s'' : State W} {id : Bytes32}

/-- A market that is registered stays as it has been registered. -/
structure Settled (id : Bytes32) (s s' : State W) : Prop where
  token : (s'.markets id).token = (s.markets id).token
  quote : (s'.markets id).quote = (s.markets id).quote
  burnMemeFees : (s'.markets id).burnMemeFees = (s.markets id).burnMemeFees
  excluded : s'.excluded id = s.excluded id
  exclusions : s'.exclusions id = s.exclusions id

theorem Settled.refl (id : Bytes32) (s : State W) : Settled id s s := ⟨rfl, rfl, rfl, rfl, rfl⟩

theorem Settled.trans (h : Settled id s s') (h' : Settled id s' s'') : Settled id s s'' where
  token := h'.token.trans h.token
  quote := h'.quote.trans h.quote
  burnMemeFees := h'.burnMemeFees.trans h.burnMemeFees
  excluded := h'.excluded.trans h.excluded
  exclusions := h'.exclusions.trans h.exclusions

/-- Excluding accounts of another market. -/
theorem excluded_foldl_exclude {i : Bytes32} (hne : id ≠ i) (list : List Address) (s : State W) :
    (list.foldl (exclude i) s).excluded id = s.excluded id ∧
      (list.foldl (exclude i) s).exclusions id = s.exclusions id := by
  induction list generalizing s with
  | nil => exact ⟨rfl, rfl⟩
  | cons account list ih =>
    rw [List.foldl_cons, (ih _).1, (ih _).2, exclude]
    split_ifs
    · exact ⟨rfl, rfl⟩
    · exact ⟨update_of_ne hne _ _, update_of_ne hne _ _⟩

/-- The list of a market has all its excluded accounts. -/
def ListsExcluded (s : State W) (id : Bytes32) : Prop :=
  ∀ account, s.excluded id account = true → account ∈ s.exclusions id

/-- Excluding accounts keeps the list complete. -/
theorem listsExcluded_foldl_exclude (list : List Address) {s : State W} (h : ListsExcluded s id) :
    ListsExcluded (list.foldl (exclude id) s) id := by
  induction list generalizing s with
  | nil => exact h
  | cons account list ih =>
    rw [List.foldl_cons]
    refine ih fun a ha => ?_
    rw [exclude] at ha ⊢
    split_ifs at ha ⊢
    · exact h a ha
    · simp only [update_self] at ha ⊢
      rcases eq_or_ne a account with rfl | hne
      · exact List.mem_append_right _ (List.mem_singleton_self a)
      · rw [update_of_ne hne] at ha
        exact List.mem_append_left _ (h a ha)

theorem Settled.funded {i : Bytes32} {side : Side} {amount : ℕ}
    (hf : Funded s i side amount s') (hexcluded : s'.excluded = s.excluded)
    (hexclusions : s'.exclusions = s.exclusions) : Settled id s s' := by
  have hadd (m : Market) : (m.add side amount).token = m.token ∧
      (m.add side amount).quote = m.quote ∧ (m.add side amount).burnMemeFees = m.burnMemeFees := by
    cases side <;> exact ⟨rfl, rfl, rfl⟩
  rcases eq_or_ne id i with rfl | hne
  · refine ⟨?_, ?_, ?_, congrFun hexcluded id, congrFun hexclusions id⟩ <;> rw [hf.markets, update_self]
    · exact (hadd _).1
    · exact (hadd _).2.1
    · exact (hadd _).2.2
  · refine ⟨?_, ?_, ?_, congrFun hexcluded id, congrFun hexclusions id⟩ <;> rw [hf.markets, update_of_ne hne]

theorem settled_publish {height : ℕ} {p : Publication}
    (h : publish calls self height s p = .ok s') : Settled id s s' := by
  have hp := of_publish h
  obtain ⟨hexcluded, hexclusions⟩ : s'.excluded = s.excluded ∧ s'.exclusions = s.exclusions := by
    simp only [publish, bind_eq_ok, pure_eq_ok, Except.ok.injEq] at h
    obtain ⟨_, -, -, -, -, -, -, -, -, -, -, -, -, -, _, -, _, -, rfl⟩ := h
    exact ⟨rfl, rfl⟩
  rcases eq_or_ne id p.marketId with rfl | hne
  · refine ⟨?_, ?_, ?_, congrFun hexcluded _, congrFun hexclusions _⟩ <;> rw [hp.markets, update_self]
  · refine ⟨?_, ?_, ?_, congrFun hexcluded id, congrFun hexclusions id⟩ <;> rw [hp.markets, update_of_ne hne]

/-- **One step** leaves a market as it is, or registers it, with two different assets and
a complete list of excluded accounts. -/
theorem settled_or_registered {u : Unit} (id : Bytes32)
    (hstep : Step platform calls self s u s') :
    Settled id s s' ∨
      (s.markets id).token = 0 ∧ (s'.markets id).quote ≠ (s'.markets id).token ∧
        (ListsExcluded s id → ListsExcluded s' id) := by
  cases hstep with
  | setSnapshotPublisher caller publisher hok =>
    simp only [setSnapshotPublisher, bind_eq_ok, pure_eq_ok, Except.ok.injEq] at hok
    obtain ⟨_, -, _, -, -, -, -, -, rfl⟩ := hok
    exact Or.inl ⟨rfl, rfl, rfl, rfl, rfl⟩
  | revokeSnapshotPublisher caller expectedPublisher hok =>
    simp only [revokeSnapshotPublisher, bind_eq_ok, pure_eq_ok, Except.ok.injEq] at hok
    obtain ⟨_, -, _, -, -, -, -, -, rfl⟩ := hok
    exact Or.inl ⟨rfl, rfl, rfl, rfl, rfl⟩
  | registerFeeSharingMarket caller i vault locker hok =>
    obtain ⟨hnew, ⟨token, quote, height, burnMemeFees, hmarkets, -⟩, -⟩ :=
      of_registerFeeSharingMarket hok
    simp only [registerFeeSharingMarket, bind_eq_ok, revertIf_eq_ok, pure_eq_ok, Except.ok.injEq,
      not_or] at hok
    obtain ⟨_, -, -, -, v, -, _, -, -, -, _, -, -, -, _, -, -, -, _, -, -, ⟨-, hassets, -⟩, manager, -,
      rfl⟩ := hok
    rcases eq_or_ne id i with rfl | hne
    · refine Or.inr ⟨hnew, ?_, fun hlists => ?_⟩
      · dsimp only
        rw [(foldl_exclude _ _).1]
        dsimp only
        rw [update_self]
        exact hassets
      · exact listsExcluded_foldl_exclude _ hlists
    · obtain ⟨hexcluded, hexclusions⟩ := excluded_foldl_exclude hne [0, 0xdead, v.config.memeToken,
        v.config.curve, manager, locker, self, vault, v.config.graduatedHook] _
      refine Or.inl ⟨?_, ?_, ?_, hexcluded, hexclusions⟩ <;>
        rw [hmarkets, update_of_ne hne]
  | fundQuoteRewards caller value i bucket amount hok =>
    have hfunded := of_fundQuoteRewards hok
    simp only [fundQuoteRewards, bind_eq_ok, pure_eq_ok, Except.ok.injEq] at hok
    obtain ⟨_, -, -, -, -, -, _, -, _, -, _, -, -, -, rfl⟩ := hok
    exact Or.inl (Settled.funded hfunded rfl rfl)
  | fundMemeFees caller i amount hok =>
    have hfunded := of_fundMemeFees hok
    simp only [fundMemeFees, bind_eq_ok, pure_eq_ok, Except.ok.injEq] at hok
    obtain ⟨_, -, -, -, -, -, _, -, _, -, _, -, -, -, rfl⟩ := hok
    exact Or.inl (Settled.funded hfunded rfl rfl)
  | publishSnapshots caller publications hok =>
    simp only [publishSnapshots, bind_eq_ok] at hok
    obtain ⟨-, -, -, -, height, -, hloop⟩ := hok
    exact Or.inl (Reducer.invariant (I := Settled id s)
      (fun t p t' ht hp => ht.trans (settled_publish hp)) hloop (Settled.refl id s))
  | claimSnapshot caller i round quoteAmount memeAmount assets proof paid hok =>
    have hc := of_claimSnapshot hok
    obtain ⟨hexcluded, hexclusions⟩ :
        s'.excluded = s.excluded ∧ s'.exclusions = s.exclusions := by
      simp only [claimSnapshot, bind_eq_ok, pure_eq_ok, Except.ok.injEq, Prod.mk.injEq,
        Prod.exists] at hok
      obtain ⟨-, -, -, -, _, -, -, -, -, -, -, -, -, -, _, -, _, -, _, _, -, _, _, -, -, -, -, -, rfl, -⟩ :=
        hok
      exact ⟨rfl, rfl⟩
    refine Or.inl ⟨?_, ?_, ?_, congrFun hexcluded id, congrFun hexclusions id⟩ <;> rw [hc.markets]
  | outside w => exact Or.inl ⟨rfl, rfl, rfl, rfl, rfl⟩

theorem settled_of_step {u : Unit} (hregistered : (s.markets id).token ≠ 0)
    (hstep : Step platform calls self s u s') : Settled id s s' :=
  (settled_or_registered id hstep).resolve_right fun h => hregistered h.1

/-- **A run** leaves a registered market as it has been registered. -/
theorem settled_of_run {es : List Unit} (hregistered : (s.markets id).token ≠ 0)
    (hrun : Transition.Run (Step platform calls self) s es s') : Settled id s s' :=
  hrun.invariant (I := Settled id s)
    (fun _ _ _ ht hstep => ht.trans (settled_of_step (ht.token ▸ hregistered) hstep))
    (Settled.refl id s)

/-- **The two assets of a market are different.** -/
theorem quote_ne_token (h : Reachable platform calls self s)
    (hregistered : (s.markets id).token ≠ 0) : (s.markets id).quote ≠ (s.markets id).token := by
  refine h.invariant
    (I := fun s => (s.markets id).token ≠ 0 → (s.markets id).quote ≠ (s.markets id).token)
    (fun s hs hne => ?_) (fun s _ s' hs hstep hne => ?_) hregistered
  · rw [hs.markets] at hne
    exact absurd rfl hne
  · rcases settled_or_registered id hstep with hsettled | ⟨-, hassets, -⟩
    · rw [hsettled.token] at hne
      rw [hsettled.quote, hsettled.token]
      exact hs hne
    · exact hassets

/-- **The list of a market has all its excluded accounts.** -/
theorem mem_exclusions_of_excluded (h : Reachable platform calls self s) {account : Address}
    (hexcluded : s.excluded id account = true) : account ∈ s.exclusions id := by
  refine h.invariant (I := fun s => ListsExcluded s id) (fun s hs account ha => ?_)
    (fun s _ s' hs hstep => ?_) account hexcluded
  · rw [hs.excluded] at ha
    exact absurd ha Bool.false_ne_true
  · rcases settled_or_registered id hstep with hsettled | ⟨-, -, hlists⟩
    · intro account ha
      rw [hsettled.excluded] at ha
      rw [hsettled.exclusions]
      exact hs account ha
    · exact hlists hs

end HolderRewards

end TickerGarden
