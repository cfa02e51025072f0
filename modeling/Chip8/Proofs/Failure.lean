import Chip8.Proofs.Execute
import Mathlib.Tactic.Common

/-!
# `Chip8.Proofs.Failure`: when an instruction fails, and how

`Instruction.FailsWith` lists the ways in which an instruction fails on a machine: a return
without an open call, and an access to memory that is not granted. How many bytes an
instruction reads or writes decides the second, and nothing else about it matters.
`fault_execute_iff` says that execution fails in these ways and in no other.

`failsWith_…_iff` turns the list around, fault by fault. `FailsWith.congr` says which parts of
the machine a failure depends on: the index, the program counter and the open calls. What is in
memory, in the registers or on the screen does not matter.
-/

set_option autoImplicit false

namespace Chip8

namespace Instruction

/-! ### Instructions -/

/-- How many bytes of memory the instruction reads, from the index on. -/
def bytesRead : Instruction → Nat
  | .draw _ _ height => height.toNat % 0x10
  | .loadRegisters x => Registers.slot x + 1
  | _ => 0

/-- The ways in which an instruction fails on a machine. -/
inductive FailsWith (instr : Instruction) (m : Machine) : Fault → Prop
  /-- It returns, and no call is open. The fault names the instruction itself. -/
  | noCall (hret : instr = .ret) (hcalls : m.calls = []) :
    FailsWith instr m (.stackUnderflow m.rewind.pc)
  | readPastEnd (hread : 0 < instr.bytesRead)
      (hend : Memory.size < m.index.toNat + instr.bytesRead) :
    FailsWith instr m (Memory.pastEnd m.index.toNat)
  | writeReserved (hwrite : 0 < instr.bytesWritten)
      (hlow : m.index.toNat < Memory.programStart) :
    FailsWith instr m (.reservedWrite m.index.toNat)
  | writePastEnd (hwrite : 0 < instr.bytesWritten)
      (hhigh : Memory.programStart ≤ m.index.toNat)
      (hend : Memory.size < m.index.toNat + instr.bytesWritten) :
    FailsWith instr m (Memory.pastEnd m.index.toNat)

variable {instr : Instruction} {m : Machine} {fault : Fault}

/-- An instruction that only reads fails as its read does. -/
theorem failsWith_iff_read (hret : instr ≠ .ret) (hwrite : instr.bytesWritten = 0) :
    FailsWith instr m fault ↔
      m.memory.read m.index.toNat instr.bytesRead = .error fault := by
  rw [Memory.read_eq_error_iff]
  constructor
  · intro h
    cases h with
    | noCall h _ => exact absurd h hret
    | readPastEnd hread hend => exact ⟨⟨hread, hend⟩, rfl⟩
    | writeReserved h _ => exact absurd hwrite (Nat.ne_of_gt h)
    | writePastEnd h _ _ => exact absurd hwrite (Nat.ne_of_gt h)
  · rintro ⟨⟨hread, hend⟩, rfl⟩
    exact .readPastEnd hread hend

/-- An instruction that only writes fails as its write does. -/
theorem failsWith_iff_write (hret : instr ≠ .ret) (hread : instr.bytesRead = 0)
    {bytes : List UInt8} (hlength : bytes.length = instr.bytesWritten) :
    FailsWith instr m fault ↔ m.memory.write m.index.toNat bytes = .error fault := by
  rw [Memory.write_eq_error_iff, hlength]
  constructor
  · intro h
    cases h with
    | noCall h _ => exact absurd h hret
    | readPastEnd h _ => exact absurd hread (Nat.ne_of_gt h)
    | writeReserved hwrite hlow => exact .inl ⟨hwrite, hlow, rfl⟩
    | writePastEnd hwrite hhigh hend => exact .inr ⟨hwrite, hhigh, hend, rfl⟩
  · rintro (⟨hwrite, hlow, rfl⟩ | ⟨hwrite, hhigh, hend, rfl⟩)
    · exact .writeReserved hwrite hlow
    · exact .writePastEnd hwrite hhigh hend

/-- An instruction that neither returns nor accesses memory has no way to fail. -/
theorem fault_execute_iff_of_done (hdone : (instr.execute m).fault = none) (hret : instr ≠ .ret)
    (hread : instr.bytesRead = 0) (hwrite : instr.bytesWritten = 0) :
    (instr.execute m).fault = some fault ↔ FailsWith instr m fault := by
  rw [hdone, failsWith_iff_read hret hwrite, hread]
  simp only [Memory.read, if_pos, reduceCtorEq]

/-- A return fails exactly when no call is open. -/
theorem fault_returnFromCall_iff :
    m.returnFromCall.fault = some fault ↔ FailsWith .ret m fault := by
  unfold Machine.returnFromCall
  constructor
  · intro h
    split at h
    · rename_i hcalls
      cases h
      exact .noCall rfl hcalls
    · exact nomatch h
  · intro h
    cases h with
    | noCall _ hcalls => rw [hcalls]
    | readPastEnd h _ => exact absurd h (Nat.lt_irrefl 0)
    | writeReserved h _ => exact absurd h (Nat.lt_irrefl 0)
    | writePastEnd h _ _ => exact absurd h (Nat.lt_irrefl 0)

/-- Execution fails in the listed ways and in no other. -/
theorem fault_execute_iff : (instr.execute m).fault = some fault ↔ FailsWith instr m fault := by
  cases instr with
  | ret => exact fault_returnFromCall_iff
  | draw x y height =>
    rw [failsWith_iff_read (by simp) rfl]
    exact Outcome.fault_ofPart_iff
  | loadRegisters x =>
    rw [failsWith_iff_read (by simp) rfl]
    exact Outcome.fault_ofPart_iff
  | storeDecimal x =>
    have hlength : (Machine.decimalDigits (m.registers.get x)).length = 3 := rfl
    rw [failsWith_iff_write (by simp) rfl hlength]
    exact Outcome.fault_ofPart_iff
  | storeRegisters x =>
    rw [failsWith_iff_write (by simp) rfl (m.registers.length_upTo x)]
    exact Outcome.fault_ofPart_iff
  | awaitKey x =>
    have hdone : ((awaitKey x).execute m).fault = none := by
      simp only [execute]
      split <;> rfl
    exact fault_execute_iff_of_done hdone (by simp) rfl rfl
  | _ => exact fault_execute_iff_of_done rfl (by simp) rfl rfl

/-! One lemma for each fault, and `FailsWith.kind` for the faults that no instruction has. -/

/-- Only a return with no call open is a stack underflow, and it names the address of the
instruction. -/
theorem failsWith_stackUnderflow_iff {address : UInt16} :
    FailsWith instr m (.stackUnderflow address) ↔
      (instr = .ret ∧ m.calls = []) ∧ address = m.rewind.pc := by
  constructor
  · intro h
    cases h with
    | noCall hret hcalls => exact ⟨⟨hret, hcalls⟩, rfl⟩
  · rintro ⟨⟨hret, hcalls⟩, rfl⟩
    exact .noCall hret hcalls

/-- An access out of bounds reaches past the end of memory, and a write that is one starts no lower
than programs. The fault names the first of its addresses past the end. -/
theorem failsWith_outOfBounds_iff {address : Nat} :
    FailsWith instr m (.outOfBounds address) ↔
      ((0 < instr.bytesRead ∧ Memory.size < m.index.toNat + instr.bytesRead) ∨
        (0 < instr.bytesWritten ∧ Memory.programStart ≤ m.index.toNat ∧
          Memory.size < m.index.toNat + instr.bytesWritten)) ∧
      address = max m.index.toNat Memory.size := by
  constructor
  · intro h
    cases h with
    | readPastEnd hread hend => exact ⟨.inl ⟨hread, hend⟩, rfl⟩
    | writePastEnd hwrite hhigh hend => exact ⟨.inr ⟨hwrite, hhigh, hend⟩, rfl⟩
  · rintro ⟨⟨hread, hend⟩ | ⟨hwrite, hhigh, hend⟩, rfl⟩
    · exact .readPastEnd hread hend
    · exact .writePastEnd hwrite hhigh hend

/-- Bytes written below programs are a reserved write, and the address that is named is where the
write starts. -/
theorem failsWith_reservedWrite_iff {address : Nat} :
    FailsWith instr m (.reservedWrite address) ↔
      (0 < instr.bytesWritten ∧ m.index.toNat < Memory.programStart) ∧
      address = m.index.toNat := by
  constructor
  · intro h
    cases h with
    | writeReserved hwrite hlow => exact ⟨⟨hwrite, hlow⟩, rfl⟩
  · rintro ⟨⟨hwrite, hlow⟩, rfl⟩
    exact .writeReserved hwrite hlow

/-- An instruction fails in one of three ways. In particular it never meets an unknown opcode. -/
theorem FailsWith.kind (h : FailsWith instr m fault) :
    (∃ address, fault = .stackUnderflow address) ∨ (∃ address, fault = .outOfBounds address) ∨
      (∃ address, fault = .reservedWrite address) := by
  cases h with
  | noCall => exact .inl ⟨_, rfl⟩
  | readPastEnd => exact .inr (.inl ⟨_, rfl⟩)
  | writeReserved => exact .inr (.inr ⟨_, rfl⟩)
  | writePastEnd => exact .inr (.inl ⟨_, rfl⟩)

/-- Whether an instruction fails, and how, is decided by the index, the program counter and the
open calls. -/
theorem FailsWith.congr {n : Machine} (h : FailsWith instr m fault) (hindex : n.index = m.index)
    (hpc : n.pc = m.pc) (hcalls : n.calls = m.calls) : FailsWith instr n fault := by
  cases h with
  | noCall hret hnone =>
    rw [show m.rewind.pc = n.rewind.pc by simp only [Machine.rewind, hpc]]
    exact .noCall hret (hcalls.trans hnone)
  | readPastEnd hread hend =>
    rw [← hindex] at hend ⊢
    exact .readPastEnd hread hend
  | writeReserved hwrite hlow =>
    rw [← hindex] at hlow ⊢
    exact .writeReserved hwrite hlow
  | writePastEnd hwrite hhigh hend =>
    rw [← hindex] at hhigh hend ⊢
    exact .writePastEnd hwrite hhigh hend

end Instruction

end Chip8
