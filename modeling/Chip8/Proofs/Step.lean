import Chip8.Console
import Chip8.Proofs.Execute
import Mathlib.Tactic.Common

/-!
# `Chip8.Proofs.Step`: the four endings of a step

A step fetches, decodes, moves on and executes. It ends in one of four ways: there is no
opcode at the program counter, the opcode stands for no instruction, the instruction
fails, or it was executed. Each ending has an equation (`step_of_…`) that gives the whole
reply, and `step_cases` says that there is no other. What holds of every step is proved
from these.

The third ending holds the point of `step_atomic`: the program counter was moved on before
the instruction failed, and what the step leaves is still the console it began with.
-/

set_option autoImplicit false

namespace Chip8

namespace Console

/-- The reply of a step that executed `instr`, which stood in memory as `opcode`. -/
def executed (c : Console) (opcode : Opcode) (instr : Instruction) : Reply Instruction :=
  let m := (instr.execute c.machine.advance).machine
  ⟨.ok instr, { c with machine := m, redraw := c.redraw || instr.touchesScreen },
    [.executed opcode instr m.registers m.index m.pc]⟩

/-! ### The endings -/

/-- A step without an opcode to fetch fails and leaves the console as it is. -/
theorem step_of_fetch_error {c : Console} {fault : Fault} (hfetch : c.fetch = .error fault) :
    c.step = ⟨.error fault, c, [.fetchFailed c.machine.pc fault]⟩ := by
  simp only [step, hfetch]

/-- A step at an opcode that stands for no instruction fails and leaves the console as it is. -/
theorem step_of_decode_none {c : Console} {opcode : Opcode} (hfetch : c.fetch = .ok opcode)
    (hdecode : Instruction.decode? opcode = none) :
    c.step = ⟨.error (.unknownOpcode opcode c.machine.pc), c,
      [.unknownOpcode opcode c.machine.pc]⟩ := by
  simp only [step, hfetch, hdecode]

/-- A step whose instruction fails leaves the console as it is. -/
theorem step_of_fault {c : Console} {opcode : Opcode} {instr : Instruction} {fault : Fault}
    (hfetch : c.fetch = .ok opcode) (hdecode : Instruction.decode? opcode = some instr)
    (hfault : (instr.execute c.machine.advance).fault = some fault) :
    c.step = ⟨.error fault, c, [.failed opcode instr c.machine.pc fault]⟩ := by
  -- The instruction left the machine that was moved on alone, so the program counter is all
  -- that has to be put back.
  have hm := Instruction.machine_execute_of_fault hfault
  simp only [step, hfetch, hdecode, execute, hfault, hm]
  rfl

/-- A step whose instruction succeeds is that instruction, executed past the opcode. -/
theorem step_of_done {c : Console} {opcode : Opcode} {instr : Instruction}
    (hfetch : c.fetch = .ok opcode) (hdecode : Instruction.decode? opcode = some instr)
    (hdone : (instr.execute c.machine.advance).fault = none) :
    c.step = c.executed opcode instr := by
  simp only [step, hfetch, hdecode, execute, hdone, executed]

/-- A step has one of the four endings. -/
theorem step_cases (c : Console) :
    (∃ fault, c.fetch = .error fault ∧
      c.step = ⟨.error fault, c, [.fetchFailed c.machine.pc fault]⟩) ∨
    (∃ opcode, c.fetch = .ok opcode ∧ Instruction.decode? opcode = none ∧
      c.step = ⟨.error (.unknownOpcode opcode c.machine.pc), c,
        [.unknownOpcode opcode c.machine.pc]⟩) ∨
    (∃ opcode instr fault, c.fetch = .ok opcode ∧ Instruction.decode? opcode = some instr ∧
      (instr.execute c.machine.advance).fault = some fault ∧
      c.step = ⟨.error fault, c, [.failed opcode instr c.machine.pc fault]⟩) ∨
    (∃ opcode instr, c.fetch = .ok opcode ∧ Instruction.decode? opcode = some instr ∧
      (instr.execute c.machine.advance).fault = none ∧ c.step = c.executed opcode instr) := by
  cases hfetch : c.fetch with
  | error fault => exact .inl ⟨fault, rfl, step_of_fetch_error hfetch⟩
  | ok opcode =>
    refine .inr ?_
    cases hdecode : Instruction.decode? opcode with
    | none => exact .inl ⟨opcode, rfl, hdecode, step_of_decode_none hfetch hdecode⟩
    | some instr =>
      refine .inr ?_
      cases hfault : (instr.execute c.machine.advance).fault with
      | some fault =>
        exact .inl ⟨opcode, instr, fault, rfl, hdecode, hfault,
          step_of_fault hfetch hdecode hfault⟩
      | none =>
        exact .inr ⟨opcode, instr, rfl, hdecode, hfault, step_of_done hfetch hdecode hfault⟩

/-! ### Failures -/

/-- A step that fails leaves the console as it was. -/
theorem console_step_of_error {c : Console} {fault : Fault} (h : c.step.result = .error fault) :
    c.step.console = c := by
  rcases c.step_cases with ⟨_, _, hs⟩ | ⟨_, _, _, hs⟩ | ⟨_, _, _, _, _, _, hs⟩ | ⟨_, _, _, _, _, hs⟩
  · rw [hs]
  · rw [hs]
  · rw [hs]
  · -- The fourth ending is no failure.
    rw [hs] at h
    exact nomatch h

/-- Failures are atomic. A step that fails leaves the console as it was, with the program
counter on the instruction that failed, and an instruction that fails leaves the machine as it
was. -/
theorem step_atomic :
    (∀ (c : Console) (fault : Fault), c.step.result = .error fault → c.step.console = c) ∧
    (∀ (instr : Instruction) (m : Machine) (fault : Fault),
      (instr.execute m).fault = some fault → (instr.execute m).machine = m) := by
  refine ⟨?_, ?_⟩
  · intro c fault h
    exact console_step_of_error h
  · intro instr m fault h
    exact Instruction.machine_execute_of_fault h

/-- A console about to store sixteen registers where memory has one byte left. -/
def atLastByte : Console :=
  { ofConfig {} .zero with
    machine := { Machine.fresh {} with
      index := 0xFFF, memory := Memory.zero.store 0x200 [0xFF, 0x55] } }

/-- The first register would still fit into memory at the last byte, and is not stored. -/
theorem step_atomic_atLastByte :
    (atLastByte.step.result = .error (.outOfBounds 0x1000) ∧
      atLastByte.step.console = atLastByte) ∧
    (((Instruction.storeRegisters 0xF).execute atLastByte.machine).fault
        = some (.outOfBounds 0x1000) ∧
      ((Instruction.storeRegisters 0xF).execute atLastByte.machine).machine
        = atLastByte.machine) := by
  have hstep : atLastByte.step.result = .error (.outOfBounds 0x1000) := by decide +kernel
  have hexec : ((Instruction.storeRegisters 0xF).execute atLastByte.machine).fault
      = some (.outOfBounds 0x1000) := by decide +kernel
  exact ⟨⟨hstep, step_atomic.1 _ _ hstep⟩, hexec, step_atomic.2 _ _ _ hexec⟩

end Console

end Chip8
