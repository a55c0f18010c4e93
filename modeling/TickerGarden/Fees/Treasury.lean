import TickerGarden.Fees.Conservation

/-!
# The treasury of the platform

The revenue of the platform is paid to an account that can be replaced, in three calls by two
parties: an administrator proposes an account, the account accepts, and after a delay anybody
executes. An administrator or a guardian may cancel in between. The proposals are numbered, and
a call names the number it is about.

The history of a run is the list of its labels, and what makes an execution legitimate is
stated on the history alone, `TickerGarden.ProtocolFeeVault.Timelocked`: the latest proposal is
the one that is executed, all that has happened since are acceptances of it, and one of them is
by the account itself. What the storage remembers of the history is
`TickerGarden.ProtocolFeeVault.Remembers`; that a proposal clears the acceptance of the one
before it is nowhere in `proposePlatformTreasury`, and holds because a proposal is only made
when none is pending.
-/

namespace TickerGarden

open Checked

namespace ProtocolFeeVault

/-- `TREASURY_CHANGE_DELAY`: 48 hours. -/
def treasuryChangeDelay : ℕ := 172800

/-- `PROTOCOL_ADMIN_ROLE`. -/
def protocolAdminRole : ℕ := 1

/-- `PAUSE_GUARDIAN_ROLE`. -/
def pauseGuardianRole : ℕ := 2

/-- The immutables, with the other contracts a treasury must not be. -/
structure TreasuryImmutables extends Immutables where
  authority : Address
  marketRegistry : Address
  creatorRevenueRegistry : Address

/-- The storage of the vault, with the proposal. -/
structure TreasuryStorage extends State where
  treasuryProposalNonce : ℕ
  pendingPlatformTreasury : Address
  treasuryProposer : Address
  treasuryChangeReadyAt : ℕ
  treasuryChangeAccepted : Bool
  pendingTreasuryCodeHash : Bytes32

/-- What a call finds: who calls and when, the code of the accounts, and the roles. -/
structure TreasuryCall where
  caller : Address
  timestamp : ℕ
  hasCode : Address → Bool
  codeHash : Address → Bytes32
  hasRole : ℕ → Address → Bool

section Operations

variable (v : TreasuryImmutables) (call : TreasuryCall) (s : TreasuryStorage)

/-- `treasuryOperation`: the lock is closed during the call, and open after it. -/
def treasuryOperation : Except Revert Unit :=
  requireCreditIdle s.toState (bytes32 "TREASURY_CHANGE")

/-- `_requireTreasuryRole`. -/
def requireTreasuryRole (actor : Address) (allowGuardian : Bool) : Except Revert Unit :=
  revertIf (¬ call.hasRole protocolAdminRole actor ∧
      ¬ (allowGuardian ∧ call.hasRole pauseGuardianRole actor))
    (.feeVault (.unauthorizedTreasuryActor actor))

/-- `_requireTreasuryProposal`. -/
def requireTreasuryProposal (nonce : ℕ) : Except Revert Unit :=
  revertIf (s.pendingPlatformTreasury = 0 ∨ nonce ≠ s.treasuryProposalNonce)
    (.feeVault (.invalidTreasuryProposal nonce))

/-- `_validateNextTreasury`. -/
def validateNextTreasury (nextTreasury : Address) : Except Revert Unit :=
  revertIf (¬ call.hasCode nextTreasury ∨ nextTreasury = s.feePlatformTreasury ∨
      nextTreasury = v.self ∨ nextTreasury = v.authority ∨ nextTreasury = v.marketRegistry ∨
      nextTreasury = v.poolManager ∨ nextTreasury = v.creatorRevenueRegistry)
    (.feeVault (.invalidPlatformTreasury nextTreasury))

/-- `_clearTreasuryProposal`. -/
def clearTreasuryProposal : TreasuryStorage :=
  { s with
    pendingPlatformTreasury := 0
    treasuryProposer := 0
    treasuryChangeReadyAt := 0
    treasuryChangeAccepted := false
    pendingTreasuryCodeHash := 0 }

/-- The administrator proposes a treasury, unless another one is pending. The change is ready two
days later. -/
def proposePlatformTreasury (nextTreasury : Address) : Except Revert TreasuryStorage := do
  treasuryOperation s
  requireTreasuryRole call call.caller false
  revertIf (s.pendingPlatformTreasury ≠ 0) (.feeVault .treasuryProposalPending)
  validateNextTreasury v call s nextTreasury
  let nonce ← uadd s.treasuryProposalNonce 1
  let readyAt ← uadd call.timestamp treasuryChangeDelay
  return { s with
    treasuryProposalNonce := nonce
    pendingPlatformTreasury := nextTreasury
    treasuryProposer := call.caller
    treasuryChangeReadyAt := readyAt
    pendingTreasuryCodeHash := call.codeHash nextTreasury }

/-- The treasury that is proposed accepts, with the code that it was proposed with. -/
def acceptPlatformTreasury (nonce : ℕ) : Except Revert TreasuryStorage := do
  treasuryOperation s
  requireTreasuryProposal s nonce
  revertIf (call.caller ≠ s.pendingPlatformTreasury)
    (.feeVault (.unauthorizedTreasuryActor call.caller))
  revertIf (call.codeHash call.caller ≠ s.pendingTreasuryCodeHash)
    (.feeVault (.treasuryCodeChanged call.caller))
  return { s with treasuryChangeAccepted := true }

/-- The administrator or the guardian withdraws a proposal. -/
def cancelPlatformTreasury (nonce : ℕ) : Except Revert TreasuryStorage := do
  treasuryOperation s
  requireTreasuryRole call call.caller true
  requireTreasuryProposal s nonce
  return clearTreasuryProposal s

/-- A proposal that was accepted and is ready is carried out, by anybody, if its proposer still is
an administrator. -/
def executePlatformTreasury (nonce : ℕ) : Except Revert TreasuryStorage := do
  treasuryOperation s
  requireTreasuryProposal s nonce
  revertIf (¬ s.treasuryChangeAccepted ∨ call.timestamp < s.treasuryChangeReadyAt)
    (.feeVault .treasuryChangeNotReady)
  requireTreasuryRole call s.treasuryProposer false
  let nextTreasury := s.pendingPlatformTreasury
  validateNextTreasury v call s nextTreasury
  revertIf (call.codeHash nextTreasury ≠ s.pendingTreasuryCodeHash)
    (.feeVault (.treasuryCodeChanged nextTreasury))
  return { clearTreasuryProposal s with feePlatformTreasury := nextTreasury }

end Operations

/-! ### Runs -/

/-- What has happened: a call that went through, with its number, or something else. -/
inductive TreasuryLabel
  | propose (call : TreasuryCall) (nonce : ℕ) (nextTreasury : Address)
  | accept (call : TreasuryCall) (nonce : ℕ)
  | cancel (call : TreasuryCall) (nonce : ℕ)
  | execute (call : TreasuryCall) (nonce : ℕ)
  | elsewhere

/-- The number of the proposal a label is about. -/
def TreasuryLabel.nonce : TreasuryLabel → Option ℕ
  | .propose _ nonce _ | .accept _ nonce | .cancel _ nonce | .execute _ nonce => some nonce
  | .elsewhere => none

/-- **One step**: a call, by anybody and at any time, or something else the vault does, which
leaves the treasury and the proposal alone. -/
inductive TreasuryStep (v : TreasuryImmutables) :
    TreasuryStorage → TreasuryLabel → TreasuryStorage → Prop
  | propose {s s' : TreasuryStorage} (call : TreasuryCall) (nextTreasury : Address)
      (h : proposePlatformTreasury v call s nextTreasury = .ok s') :
      TreasuryStep v s (.propose call s'.treasuryProposalNonce nextTreasury) s'
  | accept {s s' : TreasuryStorage} (call : TreasuryCall) (nonce : ℕ)
      (h : acceptPlatformTreasury call s nonce = .ok s') :
      TreasuryStep v s (.accept call nonce) s'
  | cancel {s s' : TreasuryStorage} (call : TreasuryCall) (nonce : ℕ)
      (h : cancelPlatformTreasury call s nonce = .ok s') :
      TreasuryStep v s (.cancel call nonce) s'
  | execute {s s' : TreasuryStorage} (call : TreasuryCall) (nonce : ℕ)
      (h : executePlatformTreasury v call s nonce = .ok s') :
      TreasuryStep v s (.execute call nonce) s'
  | elsewhere (s : TreasuryStorage) (state : State)
      (h : state.feePlatformTreasury = s.feePlatformTreasury) :
      TreasuryStep v s .elsewhere { s with toState := state }

/-- The storage of a new vault: no proposal has been made. -/
structure TreasuryStorage.Fresh (s : TreasuryStorage) : Prop where
  pendingPlatformTreasury : s.pendingPlatformTreasury = 0
  treasuryChangeAccepted : s.treasuryChangeAccepted = false

/-- **What makes an execution legitimate**: the history ends in the proposal of the new treasury
under this number, which is a new one, and acceptances of it; the treasury itself is among
those who accepted; the delay is over, the code is what it was, and the proposer is still an
administrator. -/
def Timelocked (history : List TreasuryLabel) (call : TreasuryCall) (nonce : ℕ)
    (treasury : Address) : Prop :=
  ∃ before proposal after,
    history = before ++ .propose proposal nonce treasury :: after ∧
    (∀ l ∈ before, ∀ n ∈ l.nonce, n < nonce) ∧
    (∀ l ∈ after, l = .elsewhere ∨ ∃ acceptance, l = .accept acceptance nonce) ∧
    (∃ acceptance, .accept acceptance nonce ∈ after ∧ acceptance.caller = treasury ∧
      acceptance.codeHash treasury = proposal.codeHash treasury) ∧
    proposal.timestamp + treasuryChangeDelay ≤ call.timestamp ∧
    call.codeHash treasury = proposal.codeHash treasury ∧
    call.hasRole protocolAdminRole proposal.caller

/-! ### What the storage remembers -/

section Remembers

variable {v : TreasuryImmutables} {s s' : TreasuryStorage} {history : List TreasuryLabel}
  {label : TreasuryLabel} {call : TreasuryCall} {nonce : ℕ} {nextTreasury : Address}

/-- A proposal is pending, and this is what the storage has of it. -/
structure Pending (before : List TreasuryLabel) (proposal : TreasuryCall)
    (after : List TreasuryLabel) (s : TreasuryStorage) : Prop where
  nonce_lt : ∀ l ∈ before, ∀ n ∈ l.nonce, n < s.treasuryProposalNonce
  quiet : ∀ l ∈ after,
    l = .elsewhere ∨ ∃ acceptance, l = .accept acceptance s.treasuryProposalNonce
  proposer : s.treasuryProposer = proposal.caller
  readyAt : s.treasuryChangeReadyAt = proposal.timestamp + treasuryChangeDelay
  codeHash : s.pendingTreasuryCodeHash = proposal.codeHash s.pendingPlatformTreasury
  accepted : s.treasuryChangeAccepted = true →
    ∃ acceptance, .accept acceptance s.treasuryProposalNonce ∈ after ∧
      acceptance.caller = s.pendingPlatformTreasury ∧
      acceptance.codeHash s.pendingPlatformTreasury = s.pendingTreasuryCodeHash

/-- **What the storage remembers of the history.** -/
structure Remembers (history : List TreasuryLabel) (s : TreasuryStorage) : Prop where
  nonce_le : ∀ l ∈ history, ∀ n ∈ l.nonce, n ≤ s.treasuryProposalNonce
  idle : s.pendingPlatformTreasury = 0 → s.treasuryChangeAccepted = false
  pending : s.pendingPlatformTreasury ≠ 0 → ∃ before proposal after,
    history = before ++ .propose proposal s.treasuryProposalNonce s.pendingPlatformTreasury :: after
      ∧ Pending before proposal after s

theorem of_requireTreasuryProposal {u : Unit} (h : requireTreasuryProposal s nonce = .ok u) :
    s.pendingPlatformTreasury ≠ 0 ∧ nonce = s.treasuryProposalNonce := by
  rw [requireTreasuryProposal, revertIf_eq_ok, not_or, not_not] at h
  exact h

/-- **What a proposal does.** -/
theorem of_proposePlatformTreasury (h : proposePlatformTreasury v call s nextTreasury = .ok s') :
    s.pendingPlatformTreasury = 0 ∧
      s' = { s with
        treasuryProposalNonce := s.treasuryProposalNonce + 1
        pendingPlatformTreasury := nextTreasury
        treasuryProposer := call.caller
        treasuryChangeReadyAt := call.timestamp + treasuryChangeDelay
        pendingTreasuryCodeHash := call.codeHash nextTreasury } := by
  simp only [proposePlatformTreasury, bind_eq_ok, revertIf_eq_ok, uadd_eq_ok, pure_eq_ok,
    Except.ok.injEq, not_not] at h
  obtain ⟨-, -, -, -, -, hidle, -, -, _, ⟨-, rfl⟩, _, ⟨-, rfl⟩, rfl⟩ := h
  exact ⟨hidle, rfl⟩

/-- **What an acceptance does.** -/
theorem of_acceptPlatformTreasury (h : acceptPlatformTreasury call s nonce = .ok s') :
    s.pendingPlatformTreasury ≠ 0 ∧ nonce = s.treasuryProposalNonce ∧
      call.caller = s.pendingPlatformTreasury ∧
      call.codeHash call.caller = s.pendingTreasuryCodeHash ∧
      s' = { s with treasuryChangeAccepted := true } := by
  simp only [acceptPlatformTreasury, bind_eq_ok, revertIf_eq_ok, pure_eq_ok, Except.ok.injEq,
    not_not] at h
  obtain ⟨-, -, _, hproposal, -, hcaller, -, hcode, rfl⟩ := h
  obtain ⟨hne, hnonce⟩ := of_requireTreasuryProposal hproposal
  exact ⟨hne, hnonce, hcaller, hcode, rfl⟩

/-- **What a cancellation does.** -/
theorem of_cancelPlatformTreasury (h : cancelPlatformTreasury call s nonce = .ok s') :
    nonce = s.treasuryProposalNonce ∧ s' = clearTreasuryProposal s := by
  simp only [cancelPlatformTreasury, bind_eq_ok, pure_eq_ok, Except.ok.injEq] at h
  obtain ⟨-, -, -, -, _, hproposal, rfl⟩ := h
  exact ⟨(of_requireTreasuryProposal hproposal).2, rfl⟩

/-- **What an execution does.** -/
theorem of_executePlatformTreasury (h : executePlatformTreasury v call s nonce = .ok s') :
    s.pendingPlatformTreasury ≠ 0 ∧ nonce = s.treasuryProposalNonce ∧
      s.treasuryChangeAccepted = true ∧ s.treasuryChangeReadyAt ≤ call.timestamp ∧
      call.hasRole protocolAdminRole s.treasuryProposer = true ∧
      call.codeHash s.pendingPlatformTreasury = s.pendingTreasuryCodeHash ∧
      s' = { clearTreasuryProposal s with feePlatformTreasury := s.pendingPlatformTreasury } := by
  simp only [executePlatformTreasury, requireTreasuryRole, bind_eq_ok, revertIf_eq_ok, pure_eq_ok,
    Except.ok.injEq, not_not, not_or, not_lt] at h
  obtain ⟨-, -, _, hproposal, -, ⟨haccepted, hready⟩, -, hrole, -, -, -, hcode, rfl⟩ := h
  obtain ⟨hne, hnonce⟩ := of_requireTreasuryProposal hproposal
  refine ⟨hne, hnonce, haccepted, hready, ?_, hcode, rfl⟩
  simpa using hrole

/-- A cleared proposal leaves nothing to remember. -/
theorem Remembers.cleared (h : Remembers history s) (hlabel : ∀ n ∈ label.nonce,
    n ≤ s.treasuryProposalNonce) (hnonce : s'.treasuryProposalNonce = s.treasuryProposalNonce)
    (hpending : s'.pendingPlatformTreasury = 0) (haccepted : s'.treasuryChangeAccepted = false) :
    Remembers (history ++ [label]) s' where
  nonce_le l hl n hn := by
    rw [hnonce]
    rcases List.mem_append.mp hl with hl | hl
    · exact h.nonce_le l hl n hn
    · obtain rfl := List.mem_singleton.mp hl
      exact hlabel n hn
  idle _ := haccepted
  pending hne := absurd hpending hne

/-- A label that is about the pending proposal, or about none, is remembered. -/
theorem Remembers.nonce_snoc (h : Remembers history s)
    (hlabel : ∀ n ∈ label.nonce, n ≤ s'.treasuryProposalNonce)
    (hle : s.treasuryProposalNonce ≤ s'.treasuryProposalNonce) :
    ∀ l ∈ history ++ [label], ∀ n ∈ l.nonce, n ≤ s'.treasuryProposalNonce := by
  intro l hl n hn
  rcases List.mem_append.mp hl with hl | hl
  · exact (h.nonce_le l hl n hn).trans hle
  · obtain rfl := List.mem_singleton.mp hl
    exact hlabel n hn

/-- **One step.** -/
theorem Remembers.step (h : Remembers history s) (hstep : TreasuryStep v s label s') :
    Remembers (history ++ [label]) s' := by
  cases hstep with
  | propose call nextTreasury hok =>
    obtain ⟨hidle, rfl⟩ := of_proposePlatformTreasury hok
    have hnot := h.idle hidle
    refine ⟨h.nonce_snoc (fun n hn => (Option.some.inj hn).ge) (Nat.le_succ _), fun _ => hnot,
      fun _ => ⟨history, call, [], rfl, ?_⟩⟩
    refine ⟨fun l hl n hn => Nat.lt_succ_of_le (h.nonce_le l hl n hn), by simp, rfl, rfl, rfl, ?_⟩
    -- nothing was pending, so nothing was accepted
    intro haccepted
    exact absurd (hnot.symm.trans haccepted) (by decide)
  | accept call nonce hok =>
    obtain ⟨hne, rfl, hcaller, hcode, rfl⟩ := of_acceptPlatformTreasury hok
    obtain ⟨before, proposal, after, hsplit, hpending⟩ := h.pending hne
    refine ⟨h.nonce_snoc (fun n hn => (Option.some.inj hn).ge) le_rfl, fun hzero => absurd hzero hne,
      fun _ => ⟨before, proposal, after ++ [.accept call s.treasuryProposalNonce], ?_, ?_⟩⟩
    · rw [hsplit, List.append_assoc, List.cons_append]
    · refine ⟨hpending.nonce_lt, fun l hl => ?_, hpending.proposer, hpending.readyAt,
        hpending.codeHash, fun _ => ⟨call, by simp, hcaller, hcaller ▸ hcode⟩⟩
      rcases List.mem_append.mp hl with hl | hl
      · exact hpending.quiet l hl
      · exact Or.inr ⟨call, List.mem_singleton.mp hl⟩
  | cancel call nonce hok =>
    obtain ⟨rfl, rfl⟩ := of_cancelPlatformTreasury hok
    exact h.cleared (fun n hn => (Option.some.inj hn).ge) rfl rfl rfl
  | execute call nonce hok =>
    obtain ⟨-, rfl, -, -, -, -, rfl⟩ := of_executePlatformTreasury hok
    exact h.cleared (fun n hn => (Option.some.inj hn).ge) rfl rfl rfl
  | elsewhere state hsame =>
    refine ⟨h.nonce_snoc (fun n hn => by cases hn) le_rfl, h.idle, fun hne => ?_⟩
    obtain ⟨before, proposal, after, hsplit, hpending⟩ := h.pending hne
    refine ⟨before, proposal, after ++ [.elsewhere], ?_, hpending.nonce_lt, fun l hl => ?_,
      hpending.proposer, hpending.readyAt, hpending.codeHash, fun haccepted => ?_⟩
    · rw [hsplit, List.append_assoc, List.cons_append]
    · rcases List.mem_append.mp hl with hl | hl
      · exact hpending.quiet l hl
      · exact Or.inl (List.mem_singleton.mp hl)
    · obtain ⟨acceptance, hmem, hrest⟩ := hpending.accepted haccepted
      exact ⟨acceptance, List.mem_append_left _ hmem, hrest⟩

/-- **Every run.** -/
theorem remembers_of_run (hs : s.Fresh) (hrun : Transition.Run (TreasuryStep v) s history s') :
    Remembers history s' := by
  refine hrun.invariant_history (I := Remembers) (fun history s label s' h hstep => h.step hstep) ?_
  exact ⟨by simp, fun _ => hs.treasuryChangeAccepted,
    fun hne => absurd hs.pendingPlatformTreasury hne⟩

theorem Remembers.timelocked (h : Remembers history s)
    (hok : executePlatformTreasury v call s nonce = .ok s') :
    Timelocked history call nonce s'.feePlatformTreasury := by
  obtain ⟨hne, rfl, haccepted, hready, hrole, hcode, rfl⟩ := of_executePlatformTreasury hok
  obtain ⟨before, proposal, after, hsplit, hpending⟩ := h.pending hne
  obtain ⟨acceptance, hmem, hcaller, hacceptance⟩ := hpending.accepted haccepted
  refine ⟨before, proposal, after, hsplit, hpending.nonce_lt, hpending.quiet,
    ⟨acceptance, hmem, hcaller, hacceptance.trans hpending.codeHash⟩, ?_,
    hcode.trans hpending.codeHash, ?_⟩
  · rw [← hpending.readyAt]
    exact hready
  · rw [← hpending.proposer]
    exact hrole

/-- **The timelock of the treasury.** Whatever calls were made before, by whomever and whenever:
an execution is legitimate, nothing but an execution changes the treasury, and no call changes
what the vault owes. -/
theorem treasury_timelock (hs : s.Fresh) {t u : TreasuryStorage}
    (hrun : Transition.Run (TreasuryStep v) s history t) (hstep : TreasuryStep v t label u) :
    (∀ call nonce, label = .execute call nonce →
      Timelocked history call nonce u.feePlatformTreasury) ∧
    (u.feePlatformTreasury ≠ t.feePlatformTreasury → ∃ call nonce, label = .execute call nonce) ∧
    (label ≠ .elsewhere → u.ledger = t.ledger) := by
  have hremembers := remembers_of_run hs hrun
  cases hstep with
  | propose call nextTreasury hok =>
    obtain ⟨-, rfl⟩ := of_proposePlatformTreasury hok
    exact ⟨fun _ _ h => (by cases h), fun hne => absurd rfl hne, fun _ => rfl⟩
  | accept call nonce hok =>
    obtain ⟨-, -, -, -, rfl⟩ := of_acceptPlatformTreasury hok
    exact ⟨fun _ _ h => (by cases h), fun hne => absurd rfl hne, fun _ => rfl⟩
  | cancel call nonce hok =>
    obtain ⟨-, rfl⟩ := of_cancelPlatformTreasury hok
    exact ⟨fun _ _ h => (by cases h), fun hne => absurd rfl hne, fun _ => rfl⟩
  | execute call nonce hok =>
    refine ⟨fun call' nonce' h => ?_, fun _ => ⟨call, nonce, rfl⟩, fun _ => ?_⟩
    · obtain ⟨rfl, rfl⟩ := TreasuryLabel.execute.inj h
      exact hremembers.timelocked hok
    · obtain ⟨-, -, -, -, -, -, rfl⟩ := of_executePlatformTreasury hok
      rfl
  | elsewhere state hsame =>
    exact ⟨fun _ _ h => (by cases h), fun hne => absurd hsame hne, fun hne => absurd rfl hne⟩

end Remembers

/-! ### A rotation -/

namespace Sample

/-- The vault of the sample, with the accounts of the roles. -/
def treasuryVault : TreasuryImmutables := ⟨vault, 83, 84, 85⟩

/-- Account 90 is the administrator, and every account has code. -/
def treasuryCall (caller : Address) (timestamp : ℕ) : TreasuryCall :=
  ⟨caller, timestamp, fun _ => true, fun _ => 7, fun role actor => role = 1 ∧ actor = 90⟩

/-- The vault at its beginning, with no proposal. -/
def treasuryFresh : TreasuryStorage := ⟨fresh, 0, 0, 0, 0, false, 0⟩

/-- The account 90 proposes the treasury 91. -/
def proposed : Except Revert TreasuryStorage :=
  proposePlatformTreasury treasuryVault (treasuryCall 90 1000) treasuryFresh 91

theorem proposed_isOk : proposed.isOk = true := by decide +kernel

/-- The treasury accepts. -/
def accepted : Except Revert TreasuryStorage :=
  acceptPlatformTreasury (treasuryCall 91 2000) (value proposed proposed_isOk) 1

theorem accepted_isOk : accepted.isOk = true := by decide +kernel

/-- Two days later anybody carries the change out. -/
def executed : Except Revert TreasuryStorage :=
  executePlatformTreasury treasuryVault (treasuryCall 92 173800) (value accepted accepted_isOk) 1

theorem executed_isOk : executed.isOk = true := by decide +kernel

theorem treasury_run : Transition.Run (TreasuryStep treasuryVault) treasuryFresh
    [.propose (treasuryCall 90 1000) (value proposed proposed_isOk).treasuryProposalNonce 91,
      .accept (treasuryCall 91 2000) 1] (value accepted accepted_isOk) :=
  (Transition.Run.single (TreasuryStep.propose _ _ (eq_ok_value proposed_isOk))).snoc
    (TreasuryStep.accept _ _ (eq_ok_value accepted_isOk))

end Sample

/-- The rotation of the small vault is executed in the first second in which it may be. -/
theorem treasury_timelock_sample :
    Timelocked
      [.propose (Sample.treasuryCall 90 1000)
        (value Sample.proposed Sample.proposed_isOk).treasuryProposalNonce 91,
        .accept (Sample.treasuryCall 91 2000) 1]
      (Sample.treasuryCall 92 173800) 1
      (value Sample.executed Sample.executed_isOk).feePlatformTreasury :=
  (treasury_timelock ⟨rfl, rfl⟩ Sample.treasury_run
    (TreasuryStep.execute _ _ (eq_ok_value Sample.executed_isOk))).1 _ _ rfl

end ProtocolFeeVault

end TickerGarden
