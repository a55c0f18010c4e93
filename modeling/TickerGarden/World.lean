import TickerGarden.Registry.Frozen

/-!
# The world around the custody contracts

What the vaults read and do not own: the registries, the code at an account, the time
and the balances. Between two operations of the vaults it may change in any way that
`TickerGarden.World.Evolves` allows. The registries take steps of their own; time does
not go back; code does not disappear; and nobody can take away what a custodian holds,
which has approved nobody and whose tokens transfer exactly.
-/

namespace TickerGarden

/-- What the vaults read and do not own. -/
structure World where
  registries : Registries
  /-- Whether an account has code. -/
  hasCode : Address → Bool
  /-- `block.timestamp`. -/
  now : ℕ
  balances : Balances

namespace World

variable {platform : Platform} {bindings : MarketRegistry.Bindings} {custodian : Address → Prop}
  {w w' : World}

/-- **The world changes** while the custodians do nothing. -/
structure Evolves (platform : Platform) (bindings : MarketRegistry.Bindings)
    (custodian : Address → Prop) (w w' : World) : Prop where
  registries : ∃ es, Transition.Run (Registries.Step platform bindings) w.registries es w'.registries
  now_le : w.now ≤ w'.now
  hasCode : ∀ a, w.hasCode a → w'.hasCode a
  balances_le : ∀ a, custodian a → ∀ token, w.balances token a ≤ w'.balances token a

/-- What is registered stays registered. -/
theorem Evolves.frozen (h : Evolves platform bindings custodian w w') :
    Registries.Frozen w.registries w'.registries := by
  obtain ⟨es, hrun⟩ := h.registries
  exact Registries.frozen_of_run hrun

/-- The assets stay sound. -/
theorem Evolves.assetsSound (h : Evolves platform bindings custodian w w')
    (hw : Registries.AssetsSound w.registries) : Registries.AssetsSound w'.registries := by
  obtain ⟨es, hrun⟩ := h.registries
  exact hrun.invariant (fun _ _ _ hr hstep => Registries.assetsSound_of_step hstep hr) hw

end World

end TickerGarden
