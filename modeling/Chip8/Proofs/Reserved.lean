import Chip8.Proofs.Reachable

/-!
# `Chip8.Proofs.Reserved`: nothing writes to reserved memory

The first 512 bytes of memory belong to the interpreter. Everything that writes goes through
`Memory.write`, which refuses a range that begins among them, so a range that begins below the
program start and ends above it is not written either (`Memory.SameReserved.write`). What
the reserved bytes were, they are after a write, a load and an instruction, on any machine and
whether it failed or not. On a console that can be reached they are zero (`reserved_memory_stays`).
-/

set_option autoImplicit false

namespace Chip8

namespace Memory

/-- Two memories have the same reserved bytes. -/
def SameReserved (m m' : Memory) : Prop := ∀ k < programStart, m'.bytes[k]? = m.bytes[k]?

/-- A memory agrees with itself in the reserved part. -/
theorem SameReserved.refl (m : Memory) : SameReserved m m := fun _ _ => rfl

/-- A write that succeeds begins at the program start or above, or writes nothing. -/
theorem SameReserved.write {m m' : Memory} {address : Nat} {bytes : List UInt8}
    (h : m.write address bytes = .ok m') : SameReserved m m' := by
  intro k hk
  obtain ⟨hgranted, hbytes⟩ := (m.write_eq_ok_iff m' address bytes).mp h
  rw [← List.length_eq_zero_iff] at hgranted
  rw [hbytes, if_neg (by omega)]

/-- Loading a program leaves the reserved part as it is. -/
theorem SameReserved.load {m m' : Memory} {program : List UInt8}
    (h : m.load program = .ok m') : SameReserved m m' := by
  unfold Memory.load at h
  split at h
  · exact nomatch h
  · exact SameReserved.write h

end Memory

open Memory (SameReserved)

namespace Machine

/-- A write leaves the reserved part as it is, whether it succeeds or fails. -/
theorem sameReserved_write (m : Machine) (address : Nat) (bytes : List UInt8) :
    SameReserved m.memory (m.write address bytes).machine.memory := by
  unfold write
  cases h : m.memory.write address bytes with
  | error fault => exact SameReserved.refl m.memory
  | ok memory => exact SameReserved.write h

/-- Loading a program into a machine leaves the reserved part as it is, whether it succeeds or
fails. -/
theorem sameReserved_load (m : Machine) (program : List UInt8) :
    SameReserved m.memory (m.load program).machine.memory := by
  unfold load
  cases h : m.memory.load program with
  | error fault => exact SameReserved.refl m.memory
  | ok memory => exact SameReserved.load h

end Machine

/-- The two instructions that store do so by a write, and the others leave memory alone. -/
theorem Instruction.sameReserved_execute (instr : Instruction) (m : Machine) :
    SameReserved m.memory (instr.execute m).machine.memory := by
  cases instr with
  | storeDecimal x => exact m.sameReserved_write _ _
  | storeRegisters x => exact m.sameReserved_write _ _
  | _ =>
    rw [memory_execute rfl]
    exact SameReserved.refl m.memory

namespace Console

/-- The reserved bytes of a machine are zero. -/
theorem Reachable.reserved_zero {c : Console} (h : c.Reachable) :
    ∀ k < Memory.programStart, c.machine.memory.bytes[k]? = some 0 := by
  refine h.machine_induction (P := fun m => ∀ k < _, m.memory.bytes[k]? = some 0) ?_ ?_ ?_
  · intro config program entropy k hk
    show (Memory.ofProgram program).bytes[k]? = some 0
    have hlow : ¬ 0x200 ≤ k := Nat.not_le.mpr hk
    rw [Memory.getElem?_ofProgram program (by omega), if_neg hlow]
  · intro m opcode instr hm _ _ _ k hk
    rw [instr.sameReserved_execute m.advance k hk]
    exact hm k hk
  · intro m _ _ _ hm
    exact hm

/-- Nothing writes to reserved memory. On every console that can be reached, the bytes below the
program start are zero. On any machine, whatever these bytes are, an instruction with operands of
any width, a write to any address and a load of any program leave them, whether they succeed or
fail. -/
theorem reserved_memory_stays :
    (∀ c : Console, c.Reachable → ∀ k < 0x200, c.machine.memory.bytes[k]? = some 0) ∧
    (∀ (instr : Instruction) (m : Machine), ∀ k < 0x200,
      (instr.execute m).machine.memory.bytes[k]? = m.memory.bytes[k]?) ∧
    (∀ (m : Machine) (address : Nat) (bytes : List UInt8), ∀ k < 0x200,
      (m.write address bytes).machine.memory.bytes[k]? = m.memory.bytes[k]?) ∧
    ∀ (m : Machine) (program : List UInt8), ∀ k < 0x200,
      (m.load program).machine.memory.bytes[k]? = m.memory.bytes[k]? := by
  refine ⟨?_, ?_, ?_, ?_⟩
  · intro c h
    exact h.reserved_zero
  · intro instr m
    exact instr.sameReserved_execute m
  · intro m address bytes
    exact m.sameReserved_write address bytes
  · intro m program
    exact m.sameReserved_load program

/-- A machine whose last reserved byte is not zero, with the index at `index`. -/
def markedBelow (index : UInt16) : Machine :=
  { Machine.fresh {} with index, memory := Memory.zero.store 0x1FF [0xAB] }

/-- A program that stores sixteen registers from the last reserved byte on. -/
def storesBelow : List Call := [.load [0xA1, 0xFF, 0xFF, 0x55], .runFrame 2]

/-- A store that begins at the last reserved byte is refused as a whole, and one that begins right
behind it leaves it. So does a write whose last byte would be the first one allowed. On a console
the byte stays zero. -/
theorem reserved_memory_stays_markedBelow :
    let store := Instruction.storeRegisters 0xF
    ((store.execute (markedBelow 0x1FF)).fault = some (.reservedWrite 0x1FF) ∧
      (store.execute (markedBelow 0x1FF)).machine.memory.bytes[0x1FF]? = some 0xAB) ∧
    ((store.execute (markedBelow 0x200)).fault = none ∧
      (store.execute (markedBelow 0x200)).machine.memory.bytes[0x1FF]? = some 0xAB) ∧
    ((markedBelow 0).write 0x1FE [1, 2, 3]).machine.memory.bytes[0x1FF]? = some 0xAB ∧
    ((markedBelow 0).load [1, 2, 3]).machine.memory.bytes[0x1FF]? = some 0xAB ∧
    (((create {}).console.after storesBelow).step.result = .error (.reservedWrite 0x1FF) ∧
      ((create {}).console.after storesBelow).machine.memory.bytes[0x1FF]? = some 0) := by
  intro store
  have hmark (index : UInt16) : (markedBelow index).memory.bytes[0x1FF]? = some 0xAB := by
    show (Memory.zero.store 0x1FF [0xAB]).bytes[0x1FF]? = some 0xAB
    decide +kernel
  have hlast : 0x1FF < 0x200 := by decide
  obtain ⟨hzero, hexecute, hwrite, hload⟩ := reserved_memory_stays
  have hreach : ((create {}).console.after storesBelow).Reachable :=
    (Reachable.create {} .zero).after _
  refine ⟨⟨by decide +kernel, ?_⟩, ⟨by decide +kernel, ?_⟩, ?_, ?_, by decide +kernel, ?_⟩
  · exact (hexecute store _ _ hlast).trans (hmark _)
  · exact (hexecute store _ _ hlast).trans (hmark _)
  · exact (hwrite _ _ _ _ hlast).trans (hmark _)
  · exact (hload _ _ _ hlast).trans (hmark _)
  · exact hzero _ hreach _ hlast

end Console

end Chip8
