import Mathlib.Data.List.Basic
import TickerGarden.Lib.Transition

/-!
# Where a machine can be in its code

A program of the machine is a string of bytes, and every byte but the data of a push is an
instruction. `Bytecode.Boundary` are the offsets at which an instruction begins when the code
is read from its start; a jump may lead to a `JUMPDEST` at such an offset, and to nothing else.
`Bytecode.Step` is what the machine does with its program counter, whatever it computes: every
conditional jump may be taken or not, and every jump may lead to every destination.

Two facts carry every argument about a linear scan of the code.

* A program counter that is reached is a boundary (`Bytecode.boundary_of_run`), and the
  boundaries with their instructions are what a scan from the start sees
  (`Bytecode.mem_instructions`).
* Behind an `INVALID` that is an instruction nothing is reached unless a jump destination is
  there (`Bytecode.Sealed.le_of_run`), so that a scan may stop at it.

`Bytecode.not_executes` puts the two together.
-/

namespace Bytecode

/-- A byte of code. -/
abbrev Byte := BitVec 8

/-- The opcodes that matter to the program counter. -/
def stop : Byte := 0x00

/-- A jump to the instruction on top of the stack. -/
def jump : Byte := 0x56

/-- The same, if the word below it is not zero. -/
def jumpi : Byte := 0x57

/-- An instruction that may be jumped to. -/
def jumpdest : Byte := 0x5b

/-- The end of a call that succeeds. -/
def ret : Byte := 0xf3

/-- The end of a call that is undone. -/
def revert : Byte := 0xfd

/-- The end of a call that fails. -/
def invalid : Byte := 0xfe

/-- How many bytes of data follow an instruction: `PUSH1`, …, `PUSH32` have 1, …, 32. -/
def immediate (op : Byte) : ℕ :=
  if 0x60 ≤ op ∧ op ≤ 0x7f then op.toNat - 0x5f else 0

/-- **Where instructions begin**, reading the code from its start. -/
inductive Boundary (code : List Byte) : ℕ → Prop
  | start : Boundary code 0
  | next {pc : ℕ} {op : Byte} (hpc : Boundary code pc) (hop : code[pc]? = some op) :
      Boundary code (pc + 1 + immediate op)

/-- Where a jump may lead: a `JUMPDEST` that is not the data of a push. -/
def JumpDest (code : List Byte) (d : ℕ) : Prop := Boundary code d ∧ code[d]? = some jumpdest

/-- After these instructions the machine is not at the next one. -/
def Leaves (op : Byte) : Prop :=
  op = stop ∨ op = jump ∨ op = ret ∨ op = revert ∨ op = invalid

/-- **One step of the program counter**, labelled with the instruction. -/
inductive Step (code : List Byte) : ℕ → Byte → ℕ → Prop
  | next {pc : ℕ} {op : Byte} (hop : code[pc]? = some op) (hstays : ¬ Leaves op) :
      Step code pc op (pc + 1 + immediate op)
  | jump {pc d : ℕ} {op : Byte} (hop : code[pc]? = some op) (hjump : op = jump ∨ op = jumpi)
      (hd : JumpDest code d) : Step code pc op d

/-- Some path from the start of the code executes an instruction. -/
def Executes (code : List Byte) (op : Byte) : Prop :=
  ∃ path pc, Transition.Run (Step code) 0 path pc ∧ code[pc]? = some op

/-- The instructions with their offsets, in order, of code that begins at an offset and of
which some bytes are skipped. -/
def instructions : List Byte → (skipped offset : ℕ) → List (ℕ × Byte)
  | [], _, _ => []
  | _ :: code, skipped + 1, offset => instructions code skipped (offset + 1)
  | op :: code, 0, offset => (offset, op) :: instructions code (immediate op) (offset + 1)

variable {code : List Byte} {pc offset skipped limit : ℕ} {op : Byte}

/-! ### What a scan sees -/

theorem le_of_mem_instructions (h : (pc, op) ∈ instructions code skipped offset) :
    offset + skipped ≤ pc := by
  induction code generalizing skipped offset with
  | nil => exact absurd h List.not_mem_nil
  | cons byte code ih =>
    cases skipped with
    | succ skipped =>
      have := ih h
      omega
    | zero =>
      rcases List.mem_cons.mp h with heq | htail
      · rw [Prod.mk.injEq] at heq
        omega
      · have := ih htail
        omega

theorem mem_of_mem_instructions (h : (pc, op) ∈ instructions code skipped offset) : op ∈ code := by
  induction code generalizing skipped offset with
  | nil => exact absurd h List.not_mem_nil
  | cons byte code ih =>
    cases skipped with
    | succ skipped => exact List.mem_cons_of_mem _ (ih h)
    | zero =>
      rcases List.mem_cons.mp h with heq | htail
      · rw [Prod.mk.injEq] at heq
        exact List.mem_cons.mpr (Or.inl heq.2)
      · exact List.mem_cons_of_mem _ (ih htail)

/-- The instructions are seen in order. -/
theorem pairwise_instructions (code : List Byte) (skipped offset : ℕ) :
    (instructions code skipped offset).Pairwise fun x y => x.1 < y.1 := by
  induction code generalizing skipped offset with
  | nil => exact List.Pairwise.nil
  | cons byte code ih =>
    cases skipped with
    | succ skipped => exact ih skipped (offset + 1)
    | zero =>
      refine List.pairwise_cons.mpr ⟨?_, ih _ _⟩
      rintro ⟨pc, op⟩ hmem
      have := le_of_mem_instructions hmem
      dsimp only
      omega

/-- Skipping is beginning later. -/
theorem instructions_skip (code : List Byte) (skipped offset : ℕ) :
    instructions code skipped offset = instructions (code.drop skipped) 0 (offset + skipped) := by
  induction code generalizing skipped offset with
  | nil => rw [List.drop_nil, instructions, instructions]
  | cons byte code ih =>
    cases skipped with
    | zero => rfl
    | succ skipped =>
      rw [instructions, ih, List.drop_succ_cons]
      congr 1
      omega

/-- The scan from an instruction on. -/
theorem instructions_drop (hop : code[pc]? = some op) :
    instructions (code.drop pc) 0 pc
      = (pc, op) :: instructions (code.drop (pc + 1 + immediate op)) 0 (pc + 1 + immediate op) := by
  obtain ⟨hlt, hop⟩ := List.getElem?_eq_some_iff.mp hop
  rw [List.drop_eq_getElem_cons hlt, hop, instructions, instructions_skip, List.drop_drop]

/-- A boundary is where a part of the scan begins. -/
theorem Boundary.isSuffix (h : Boundary code pc) :
    instructions (code.drop pc) 0 pc <:+ instructions code 0 0 := by
  induction h with
  | start => exact List.suffix_rfl
  | next hpc hop ih =>
    rw [instructions_drop hop] at ih
    exact (List.suffix_cons _ _).trans ih

theorem boundary_of_mem_instructions {tail : List Byte} (hdrop : code.drop offset = tail)
    (hb : Boundary code (offset + skipped)) (h : (pc, op) ∈ instructions tail skipped offset) :
    Boundary code pc ∧ code[pc]? = some op := by
  induction tail generalizing skipped offset with
  | nil => exact absurd h List.not_mem_nil
  | cons byte tail ih =>
    have hbyte : code[offset]? = some byte := by
      rw [← List.head?_drop, hdrop, List.head?_cons]
    have hnext : code.drop (offset + 1) = tail := by
      rw [← List.tail_drop, hdrop, List.tail_cons]
    cases skipped with
    | succ skipped =>
      refine ih hnext ?_ h
      rwa [show offset + 1 + skipped = offset + (skipped + 1) by omega]
    | zero =>
      rcases List.mem_cons.mp h with heq | htail
      · rw [Prod.mk.injEq] at heq
        obtain ⟨rfl, rfl⟩ := heq
        exact ⟨hb, hbyte⟩
      · exact ih hnext (hb.next hbyte) htail

/-- **What a scan from the start sees** are the boundaries, with their instructions. -/
theorem mem_instructions :
    (pc, op) ∈ instructions code 0 0 ↔ Boundary code pc ∧ code[pc]? = some op := by
  constructor
  · exact fun h => boundary_of_mem_instructions List.drop_zero Boundary.start h
  · rintro ⟨hpc, hop⟩
    have hsuffix := hpc.isSuffix
    rw [instructions_drop hop] at hsuffix
    exact hsuffix.subset List.mem_cons_self

/-! ### What is reached -/

/-- **A program counter that is reached is a boundary.** -/
theorem boundary_of_run {path : List Byte} (h : Transition.Run (Step code) 0 path pc) :
    Boundary code pc := by
  refine h.invariant (I := Boundary code) (fun pc op pc' hpc hstep => ?_) .start
  cases hstep with
  | next hop hstays => exact hpc.next hop
  | jump hop hjump hd => exact hd.1

/-- Between an instruction and the next one there is no boundary. -/
theorem Boundary.next_le {q : ℕ} (hq : Boundary code q) (hpc : Boundary code pc)
    (hop : code[pc]? = some op) (hlt : pc < q) : pc + 1 + immediate op ≤ q := by
  induction q using Nat.strongRecOn generalizing pc op with
  | ind q ih =>
    cases hq with
    | start => omega
    | @next r op' hr hop' =>
      rcases Nat.lt_trichotomy pc r with hpr | rfl | hrp
      · have := ih r (by omega) hr hpc hop hpr
        omega
      · obtain rfl : op = op' := Option.some.inj (hop.symm.trans hop')
        exact Nat.le_refl _
      · -- the instruction at `r` ends behind `pc`, which is a boundary
        have := ih pc hlt hpc hr hop' hrp
        omega

/-- **A seal**: an instruction `INVALID` with no jump destination behind it. -/
structure Sealed (code : List Byte) (limit : ℕ) : Prop where
  boundary : Boundary code limit
  invalid : code[limit]? = some invalid
  jumpDest_le : ∀ d, JumpDest code d → d ≤ limit

/-- **Nothing is reached behind a seal.** -/
theorem Sealed.le_of_run (h : Sealed code limit) {path : List Byte}
    (hrun : Transition.Run (Step code) 0 path pc) : pc ≤ limit := by
  suffices hinv : Boundary code pc ∧ pc ≤ limit from hinv.2
  refine hrun.invariant (I := fun pc => Boundary code pc ∧ pc ≤ limit)
    (fun pc op pc' hpc hstep => ?_) ⟨.start, Nat.zero_le _⟩
  obtain ⟨hpc, hle⟩ := hpc
  cases hstep with
  | jump hop hjump hd => exact ⟨hd.1, h.jumpDest_le _ hd⟩
  | next hop hstays =>
    refine ⟨hpc.next hop, ?_⟩
    rcases Nat.lt_or_eq_of_le hle with hlt | rfl
    · exact h.boundary.next_le hpc hop hlt
    · -- at the seal the machine stays
      have hinvalid : op = Bytecode.invalid := Option.some.inj (hop.symm.trans h.invalid)
      exact absurd (Or.inr (Or.inr (Or.inr (Or.inr hinvalid)))) hstays

/-- **A scan is sound**: an instruction it does not see before the end of the code, or before a
seal, is not executed. -/
theorem not_executes (hlimit : code.length ≤ limit ∨ Sealed code limit) (hop : op ≠ invalid)
    (hclean : ∀ pc op', (pc, op') ∈ instructions code 0 0 → pc < limit → op' ≠ op) :
    ¬ Executes code op := by
  rintro ⟨path, pc, hrun, hpc⟩
  have hmem : (pc, op) ∈ instructions code 0 0 := mem_instructions.mpr ⟨boundary_of_run hrun, hpc⟩
  suffices hlt : pc < limit from hclean pc op hmem hlt rfl
  rcases hlimit with hlength | hsealed
  · obtain ⟨hlt, -⟩ := List.getElem?_eq_some_iff.mp hpc
    omega
  · have hle := hsealed.le_of_run hrun
    have hne : pc ≠ limit := by
      rintro rfl
      exact hop (Option.some.inj (hpc.symm.trans hsealed.invalid))
    omega

end Bytecode
