import TickerGarden.Launch.TemplateRegistry
import TickerGarden.Lib.Bytecode

/-!
# The scanners of code

Before a registry trusts the code at an account it reads it once: a stock token, its beacon and
its implementation may not hand their storage to code that is not pinned, and a vault or a
component of a launch template may not disappear either. The registry never runs the code; it
looks at the instructions one after the other, skipping the data of pushes.

| scanner                          | refused                  | may stop before the end          |
|----------------------------------|--------------------------|----------------------------------|
| `containsDelegateExecution`      | `0xf2`, `0xf4`           | at `executableBytecodeLength`    |
| `containsForbiddenVaultOpcode`   | `0xf2`, `0xf4`, `0xff`   | at an `INVALID` with no `0x5b` byte behind it |
| `validateDirectRuntime`          | `0xf2`, `0xf4`, `0xff`   | no                               |

What a scanner that stops leaves out cannot be reached: both kinds of stop are a
`Bytecode.Sealed`.
-/

namespace TickerGarden

open Bytecode

namespace OfficialStockRegistry

/-- The loop of `_executableBytecodeLength`: a jump destination undoes every earlier boundary,
and the first `INVALID` after it is the next one. -/
def boundaryFrom (length : ℕ) : List Byte → (skipped offset boundary : ℕ) → ℕ
  | [], _, _, boundary => boundary
  | _ :: runtime, skipped + 1, offset, boundary =>
    boundaryFrom length runtime skipped (offset + 1) boundary
  | opcode :: runtime, 0, offset, boundary =>
    boundaryFrom length runtime
      (if 0x60 ≤ opcode ∧ opcode ≤ 0x7f then opcode.toNat - 0x5f else 0) (offset + 1)
      (if opcode = 0x5b then length
        else if opcode = 0xfe ∧ boundary = length then offset
        else boundary)

/-- `_executableBytecodeLength`. -/
def executableBytecodeLength (runtime : List Byte) : ℕ :=
  boundaryFrom runtime.length runtime 0 0 runtime.length

/-- The loop of `_containsDelegateExecution`. -/
def delegatesFrom (executableLength : ℕ) : List Byte → (skipped offset : ℕ) → Bool
  | [], _, _ => false
  | _ :: runtime, skipped + 1, offset =>
    delegatesFrom executableLength runtime skipped (offset + 1)
  | opcode :: runtime, 0, offset =>
    if executableLength ≤ offset then false
    else if opcode = 0xf2 ∨ opcode = 0xf4 then true
    else delegatesFrom executableLength runtime
      (if 0x60 ≤ opcode ∧ opcode ≤ 0x7f then opcode.toNat - 0x5f else 0) (offset + 1)

/-- `_containsDelegateExecution`. -/
def containsDelegateExecution (runtime : List Byte) : Bool :=
  delegatesFrom (executableBytecodeLength runtime) runtime 0 0

/-- The loop of `_containsForbiddenVaultOpcode`, with the bytes a push skips. -/
def forbiddenFrom : List Byte → (skipped : ℕ) → Bool
  | [], _ => false
  | _ :: runtime, skipped + 1 => forbiddenFrom runtime skipped
  | opcode :: runtime, 0 =>
    if opcode = 0xfe ∧ 0x5b ∉ runtime then false
    else if opcode = 0xf2 ∨ opcode = 0xf4 ∨ opcode = 0xff then true
    else forbiddenFrom runtime
      (if 0x60 ≤ opcode ∧ opcode ≤ 0x7f then opcode.toNat - 0x5f else 0)

/-- `_containsForbiddenVaultOpcode`. -/
def containsForbiddenVaultOpcode (runtime : List Byte) : Bool := forbiddenFrom runtime 0

/-! ### What a scanner has seen -/

section Seen

variable {code : List Byte} {executableLength length skipped offset boundary : ℕ}

theorem delegatesFrom_cons (opcode : Byte) :
    delegatesFrom executableLength (opcode :: code) 0 offset =
      if executableLength ≤ offset then false
      else if opcode = 0xf2 ∨ opcode = 0xf4 then true
      else delegatesFrom executableLength code (immediate opcode) (offset + 1) := rfl

theorem forbiddenFrom_cons (opcode : Byte) :
    forbiddenFrom (opcode :: code) 0 =
      if opcode = 0xfe ∧ 0x5b ∉ code then false
      else if opcode = 0xf2 ∨ opcode = 0xf4 ∨ opcode = 0xff then true
      else forbiddenFrom code (immediate opcode) := rfl

theorem of_delegatesFrom (h : delegatesFrom executableLength code skipped offset = false) :
    ∀ pc op, (pc, op) ∈ instructions code skipped offset → pc < executableLength →
      op ≠ 0xf2 ∧ op ≠ 0xf4 := by
  induction code generalizing skipped offset with
  | nil => exact fun pc op hmem => absurd hmem List.not_mem_nil
  | cons opcode code ih =>
    cases skipped with
    | succ skipped => exact ih h
    | zero =>
      intro pc op hmem hlt
      have hle := le_of_mem_instructions hmem
      rw [delegatesFrom_cons, if_neg (by omega)] at h
      split_ifs at h with hop
      rcases List.mem_cons.mp hmem with heq | htail
      · obtain ⟨-, rfl⟩ := Prod.mk.inj heq
        exact not_or.mp hop
      · exact ih h pc op htail hlt

/-- What an instruction does to the boundary. -/
def nextBoundary (length boundary : ℕ) (x : ℕ × Byte) : ℕ :=
  if x.2 = 0x5b then length
  else if x.2 = 0xfe ∧ boundary = length then x.1
  else boundary

theorem boundaryFrom_eq_foldl : boundaryFrom length code skipped offset boundary
    = (instructions code skipped offset).foldl (nextBoundary length) boundary := by
  induction code generalizing skipped offset boundary with
  | nil => rfl
  | cons opcode code ih =>
    cases skipped with
    | succ skipped => exact ih
    | zero => exact ih

/-- **The boundary** is the end of the code, or an `INVALID` with no jump destination after it
in the scan. The induction takes the instructions from the last one on. -/
theorem foldl_nextBoundary (length : ℕ) (is : List (ℕ × Byte)) :
    is.foldl (nextBoundary length) length = length ∨
    ∃ before after, is = before ++ (is.foldl (nextBoundary length) length, invalid) :: after ∧
      ∀ x ∈ after, x.2 ≠ jumpdest := by
  induction is using List.reverseRecOn with
  | nil => exact Or.inl rfl
  | append_singleton is x ih =>
    obtain ⟨pc, op⟩ := x
    rw [List.foldl_append, List.foldl_cons, List.foldl_nil]
    generalize is.foldl (nextBoundary length) length = boundary at ih ⊢
    rw [nextBoundary]
    dsimp only
    split_ifs with hdest hinvalid
    · exact Or.inl rfl
    · refine Or.inr ⟨is, [], ?_, by simp⟩
      rw [hinvalid.1]
      rfl
    · rcases ih with hlength | ⟨before, after, hsplit, hafter⟩
      · exact Or.inl hlength
      · refine Or.inr ⟨before, after ++ [(pc, op)], ?_, ?_⟩
        · rw [← List.cons_append, ← List.append_assoc, ← hsplit]
        · intro x hx
          rcases List.mem_append.mp hx with hx | hx
          · exact hafter x hx
          · rw [List.mem_singleton.mp hx]
            exact hdest

theorem executableBytecodeLength_cases (runtime : List Byte) :
    runtime.length ≤ executableBytecodeLength runtime ∨
      Sealed runtime (executableBytecodeLength runtime) := by
  have hcases := foldl_nextBoundary runtime.length (instructions runtime 0 0)
  rw [executableBytecodeLength, boundaryFrom_eq_foldl]
  generalize (instructions runtime 0 0).foldl (nextBoundary runtime.length) runtime.length = limit
    at hcases ⊢
  rcases hcases with hlength | ⟨before, after, hsplit, hafter⟩
  · exact Or.inl hlength.ge
  · have hmem : (limit, invalid) ∈ instructions runtime 0 0 := hsplit ▸ by simp
    obtain ⟨hboundary, hinvalid⟩ := mem_instructions.mp hmem
    refine Or.inr ⟨hboundary, hinvalid, fun d hd => ?_⟩
    -- the instructions are in order, and no destination is after the seal
    have hsorted := pairwise_instructions runtime 0 0
    have hdest := mem_instructions.mpr hd
    rw [hsplit] at hsorted hdest
    rcases List.mem_append.mp hdest with hbefore | hrest
    · have hlt := (List.pairwise_append.mp hsorted).2.2 _ hbefore _ List.mem_cons_self
      exact Nat.le_of_lt hlt
    · rcases List.mem_cons.mp hrest with heq | hmemafter
      · exact Nat.le_of_eq (Prod.mk.inj heq).1
      · exact absurd rfl (hafter _ hmemafter)

/-- **The vault scanner** has seen every instruction, or every one before an `INVALID` with no
jump destination after it. -/
theorem of_forbiddenFrom (offset : ℕ) (h : forbiddenFrom code skipped = false) :
    (∀ pc op, (pc, op) ∈ instructions code skipped offset →
      op ≠ 0xf2 ∧ op ≠ 0xf4 ∧ op ≠ 0xff) ∨
    ∃ limit, (limit, invalid) ∈ instructions code skipped offset ∧
      ∀ pc op, (pc, op) ∈ instructions code skipped offset →
        (pc < limit → op ≠ 0xf2 ∧ op ≠ 0xf4 ∧ op ≠ 0xff) ∧ (limit < pc → op ≠ jumpdest) := by
  induction code generalizing skipped offset with
  | nil => exact Or.inl fun pc op hmem => absurd hmem List.not_mem_nil
  | cons opcode code ih =>
    cases skipped with
    | succ skipped => exact ih (offset + 1) h
    | zero =>
      rw [forbiddenFrom_cons] at h
      split_ifs at h with hstop hop
      · -- the scan ends here
        obtain ⟨rfl, hnone⟩ := hstop
        refine Or.inr ⟨offset, List.mem_cons_self, fun pc op hmem => ?_⟩
        have hle := le_of_mem_instructions hmem
        refine ⟨fun hlt => by omega, fun hlt => ?_⟩
        rcases List.mem_cons.mp hmem with heq | htail
        · obtain ⟨rfl, -⟩ := Prod.mk.inj heq
          exact absurd hlt (Nat.lt_irrefl _)
        · rintro rfl
          exact hnone (mem_of_mem_instructions htail)
      · have hclean : opcode ≠ 0xf2 ∧ opcode ≠ 0xf4 ∧ opcode ≠ 0xff := by
          simpa only [not_or] using hop
        rcases ih (offset + 1) h with hall | ⟨limit, hlimit, hseen⟩
        · refine Or.inl fun pc op hmem => ?_
          rcases List.mem_cons.mp hmem with heq | htail
          · obtain ⟨-, rfl⟩ := Prod.mk.inj heq
            exact hclean
          · exact hall pc op htail
        · have hle := le_of_mem_instructions hlimit
          refine Or.inr ⟨limit, List.mem_cons_of_mem _ hlimit, fun pc op hmem => ?_⟩
          rcases List.mem_cons.mp hmem with heq | htail
          · obtain ⟨rfl, rfl⟩ := Prod.mk.inj heq
            exact ⟨fun _ => hclean, fun hlt => by omega⟩
          · exact hseen pc op htail

end Seen

end OfficialStockRegistry

theorem LaunchTemplateRegistry.of_unsafeOpcode {code : List Byte} {skipped offset : ℕ}
    (h : unsafeOpcode code skipped = none) :
    ∀ pc op, (pc, op) ∈ instructions code skipped offset →
      op ≠ 0xf2 ∧ op ≠ 0xf4 ∧ op ≠ 0xff := by
  induction code generalizing skipped offset with
  | nil => exact fun pc op hmem => absurd hmem List.not_mem_nil
  | cons opcode code ih =>
    cases skipped with
    | succ skipped => exact ih h
    | zero =>
      change (if opcode = 0xf2 ∨ opcode = 0xf4 ∨ opcode = 0xff then some opcode
        else unsafeOpcode code (immediate opcode)) = none at h
      split_ifs at h with hop
      intro pc op hmem
      rcases List.mem_cons.mp hmem with heq | htail
      · obtain ⟨-, rfl⟩ := Prod.mk.inj heq
        simpa only [not_or] using hop
      · exact ih h pc op htail

/-! ### Soundness -/

theorem OfficialStockRegistry.not_executes_of_containsDelegateExecution {runtime : List Byte}
    (h : containsDelegateExecution runtime = false) :
    ¬ Executes runtime 0xf2 ∧ ¬ Executes runtime 0xf4 := by
  have hcases := executableBytecodeLength_cases runtime
  have hseen := of_delegatesFrom h
  constructor
  · exact not_executes hcases (by decide) fun pc op hmem hlt => (hseen pc op hmem hlt).1
  · exact not_executes hcases (by decide) fun pc op hmem hlt => (hseen pc op hmem hlt).2

/-- What is clean before a limit is not executed, if the limit is the end or a seal. -/
theorem not_executes_of_clean {runtime : List Byte} {limit : ℕ}
    (hlimit : runtime.length ≤ limit ∨ Sealed runtime limit)
    (hclean : ∀ pc op, (pc, op) ∈ instructions runtime 0 0 → pc < limit →
      op ≠ 0xf2 ∧ op ≠ 0xf4 ∧ op ≠ 0xff) :
    ¬ Executes runtime 0xf2 ∧ ¬ Executes runtime 0xf4 ∧ ¬ Executes runtime 0xff := by
  refine ⟨?_, ?_, ?_⟩
  · exact not_executes hlimit (by decide) fun pc op hmem hlt => (hclean pc op hmem hlt).1
  · exact not_executes hlimit (by decide) fun pc op hmem hlt => (hclean pc op hmem hlt).2.1
  · exact not_executes hlimit (by decide) fun pc op hmem hlt => (hclean pc op hmem hlt).2.2

theorem OfficialStockRegistry.not_executes_of_containsForbiddenVaultOpcode {runtime : List Byte}
    (h : containsForbiddenVaultOpcode runtime = false) :
    ¬ Executes runtime 0xf2 ∧ ¬ Executes runtime 0xf4 ∧ ¬ Executes runtime 0xff := by
  rcases of_forbiddenFrom 0 h with hall | ⟨limit, hlimit, hseen⟩
  · exact not_executes_of_clean (Or.inl (Nat.le_refl _)) fun pc op hmem _ => hall pc op hmem
  · obtain ⟨hboundary, hinvalid⟩ := mem_instructions.mp hlimit
    have hsealed : Sealed runtime limit := by
      refine ⟨hboundary, hinvalid, fun d hd => ?_⟩
      by_contra hlt
      exact (hseen d jumpdest (mem_instructions.mpr hd)).2 (not_le.mp hlt) rfl
    exact not_executes_of_clean (Or.inr hsealed) fun pc op hmem hlt => (hseen pc op hmem).1 hlt

theorem LaunchTemplateRegistry.not_executes_of_validateDirectRuntime
    {runtime : Address → List Byte} {component : Address}
    (h : validateDirectRuntime runtime component = .ok ()) :
    ¬ Executes (runtime component) 0xf2 ∧ ¬ Executes (runtime component) 0xf4 ∧
      ¬ Executes (runtime component) 0xff := by
  rw [validateDirectRuntime] at h
  split at h
  · cases h
  · rename_i hnone
    exact not_executes_of_clean (Or.inl (Nat.le_refl _))
      fun pc op hmem _ => of_unsafeOpcode hnone pc op hmem

/-- **The scanners are sound**, for every string of bytes: no path from the start of code that a
scanner lets through executes an instruction the scanner is there to refuse. -/
theorem scanners_sound :
    (∀ runtime, OfficialStockRegistry.containsDelegateExecution runtime = false →
      ¬ Executes runtime 0xf2 ∧ ¬ Executes runtime 0xf4) ∧
    (∀ runtime, OfficialStockRegistry.containsForbiddenVaultOpcode runtime = false →
      ¬ Executes runtime 0xf2 ∧ ¬ Executes runtime 0xf4 ∧ ¬ Executes runtime 0xff) ∧
    ∀ (runtime : Address → List Byte) component,
      LaunchTemplateRegistry.validateDirectRuntime runtime component = .ok () →
        ¬ Executes (runtime component) 0xf2 ∧ ¬ Executes (runtime component) 0xf4 ∧
          ¬ Executes (runtime component) 0xff :=
  ⟨fun _ => OfficialStockRegistry.not_executes_of_containsDelegateExecution,
    fun _ => OfficialStockRegistry.not_executes_of_containsForbiddenVaultOpcode,
    fun _ _ => LaunchTemplateRegistry.not_executes_of_validateDirectRuntime⟩

/-- A push of a forbidden byte, the end of the program, and constants behind an `INVALID`. -/
def constantsRuntime : List Byte := [0x60, 0xf4, 0x00, 0xfe, 0xf4, 0xff]

/-- The scanners let it through, where the strict one does not; without the constants, it does. -/
theorem scanners_sound_sample :
    (¬ Executes constantsRuntime 0xf2 ∧ ¬ Executes constantsRuntime 0xf4) ∧
    (¬ Executes constantsRuntime 0xf2 ∧ ¬ Executes constantsRuntime 0xf4 ∧
      ¬ Executes constantsRuntime 0xff) ∧
    ¬ Executes (constantsRuntime.take 4) 0xf2 ∧ ¬ Executes (constantsRuntime.take 4) 0xf4 ∧
      ¬ Executes (constantsRuntime.take 4) 0xff :=
  ⟨scanners_sound.1 constantsRuntime (by decide), scanners_sound.2.1 constantsRuntime (by decide),
    scanners_sound.2.2 (fun _ => constantsRuntime.take 4) 0 (by decide)⟩

end TickerGarden
