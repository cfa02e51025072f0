import Chip8.Proofs.Encoding
import Chip8.Proofs.History
import Chip8.Proofs.Load
import Chip8.Proofs.Step

/-!
# `Chip8.Proofs.StraightLine`: an assembled program runs as written

`assemble` writes a list of instructions as the bytes of their opcodes. Take a program of
straight instructions, load its bytes and step: as long as no instruction writes over the
program, step number `j` fetches and executes instruction number `j`, and fails if and only
if that instruction fails (`assembled_program_runs`).

The invariant is `AtInstruction program j m`: the program stands in memory, and the program
counter points at its instruction number `j`. A load establishes it (`atInstruction_loaded`),
an instruction that spares the program moves it on by one (`AtInstruction.execute`), and so
it holds after `j` steps (`atInstruction_afterSteps`). It gives the opcode that is fetched
(`AtInstruction.fetch`).
-/

set_option autoImplicit false

namespace Chip8

/-! ### Programs as bytes -/

/-- The two bytes of a word, the high one first. -/
def Opcode.bytes (w : Opcode) : List UInt8 := [UInt8.ofNat (w.toNat / 0x100), w.byte]

/-- The bytes of a program: its opcodes, one after the other. -/
def assemble (program : List Instruction) : List UInt8 :=
  program.flatMap fun instr => instr.opcode.bytes

/-- The bytes of a word make up that word. -/
theorem Opcode.ofBytes_bytes (w : Opcode) : ofBytes (UInt8.ofNat (w.toNat / 0x100)) w.byte = w := by
  -- The high byte of a word is below 0x100, so writing it as a byte loses nothing.
  have := w.toNat_lt
  apply UInt16.toNat_inj.mp
  rw [toNat_ofBytes]
  simp only [byte, UInt8.toNat_ofNat']
  omega

/-- A program starts with the bytes of its first instruction. -/
theorem assemble_cons (instr : Instruction) (program : List Instruction) :
    assemble (instr :: program) = instr.opcode.bytes ++ assemble program :=
  List.flatMap_cons

/-- Every instruction takes two bytes. -/
theorem length_assemble (program : List Instruction) :
    (assemble program).length = 2 * program.length := by
  induction program with
  | nil => rfl
  | cons instr program ih =>
    rw [assemble_cons, List.length_append, ih, List.length_cons]
    show 2 + 2 * program.length = 2 * (program.length + 1)
    omega

/-- The bytes of instruction number `j` stand at `2 * j`. -/
theorem getElem?_assemble {program : List Instruction} {j k : Nat} (hj : j < program.length)
    (hk : k < 2) : (assemble program)[2 * j + k]? = program[j].opcode.bytes[k]? := by
  induction program generalizing j with
  | nil => exact absurd hj (Nat.not_lt_zero j)
  | cons instr program ih =>
    rw [assemble_cons]
    cases j with
    | zero =>
      rw [Nat.mul_zero, Nat.zero_add, List.getElem?_append_left hk]
      rfl
    | succ j =>
      have hj : j < program.length := Nat.lt_of_succ_lt_succ hj
      -- The first instruction takes two bytes, and the byte asked for stands behind them.
      have hpast : instr.opcode.bytes.length ≤ 2 * (j + 1) + k := by
        show 2 ≤ 2 * (j + 1) + k
        omega
      rw [List.getElem?_append_right hpast]
      show (assemble program)[2 * (j + 1) + k - 2]? = program[j].opcode.bytes[k]?
      rw [show 2 * (j + 1) + k - 2 = 2 * j + k by omega, ih hj]

/-- The opcode at an address is made of the byte there and the one after it. -/
theorem Memory.readOpcode_of_bytes {m : Memory} {a : Nat} {high low : UInt8}
    (hhigh : m.bytes[a]? = some high) (hlow : m.bytes[a + 1]? = some low) :
    m.readOpcode a = .ok (.ofBytes high low) := by
  obtain ⟨_, rfl⟩ := Vector.getElem?_eq_some_iff.mp hhigh
  obtain ⟨hend, rfl⟩ := Vector.getElem?_eq_some_iff.mp hlow
  rw [readOpcode, dif_pos (show a + 2 ≤ 4096 by omega)]

/-! ### The invariant -/

/-- The program stands in memory, and the program counter points at its instruction number
`j`, or behind the program. -/
structure AtInstruction (program : List Instruction) (j : Nat) (m : Machine) : Prop where
  code : ∀ k < 2 * program.length, m.memory.bytes[0x200 + k]? = (assemble program)[k]?
  pc : m.pc.toNat = 0x200 + 2 * j

/-- Executed on `m`, the instruction writes no byte of a program of `size` bytes. -/
def Instruction.SparesProgram (instr : Instruction) (m : Machine) (size : Nat) : Prop :=
  ∀ a, m.index.toNat ≤ a → a < m.index.toNat + instr.bytesWritten → a < 0x200 ∨ 0x200 + size ≤ a

section

variable {program : List Instruction} {j : Nat} {m : Machine}

/-- The program counter finds the opcode of the instruction that it points at. -/
theorem AtInstruction.fetch (h : AtInstruction program j m) (hj : j < program.length) :
    m.fetch = .ok program[j].opcode := by
  have hbyte (k : Nat) (hk : k < 2) :
      m.memory.bytes[0x200 + 2 * j + k]? = program[j].opcode.bytes[k]? := by
    rw [Nat.add_assoc, h.code _ (by omega), getElem?_assemble hj hk]
  have hread := Memory.readOpcode_of_bytes (hbyte 0 (by decide)) (hbyte 1 (by decide))
  rw [Opcode.ofBytes_bytes] at hread
  rw [Machine.fetch, h.pc]
  exact hread

/-- A machine that moves on points at the next instruction. -/
theorem AtInstruction.toNat_pc_advance (h : AtInstruction program j m) (hj : j < 0x700) :
    m.advance.pc.toNat = 0x200 + 2 * (j + 1) := by
  show (m.pc + UInt16.ofNat Opcode.size).toNat = 0x200 + 2 * (j + 1)
  rw [UInt16.toNat_add, h.pc]
  show (0x200 + 2 * j + 2) % 0x10000 = 0x200 + 2 * (j + 1)
  omega

/-- A straight instruction that spares the program leads to the next one. -/
theorem AtInstruction.execute (h : AtInstruction program j m) (hj : j < 0x700)
    {instr : Instruction} (hstraight : instr.isStraight = true)
    (hspares : instr.SparesProgram m (2 * program.length)) :
    AtInstruction program (j + 1) (instr.execute m.advance).machine where
  code k hk := by
    rw [instr.getElem?_memory_execute m.advance ?_]
    · exact h.code k hk
    · -- Inside of the range that is written, the address would not be one of the program.
      apply Classical.byContradiction
      intro hinside
      have hindex : m.advance.index = m.index := rfl
      rw [hindex] at hinside
      have := hspares (0x200 + k) (by omega) (by omega)
      omega
  pc := by
    rw [Instruction.pc_execute hstraight, h.toNat_pc_advance hj]

/-- After a load, the program stands in memory and is about to begin. -/
theorem atInstruction_loaded (config : Config) (entropy : Random.Key)
    (hlength : program.length ≤ 0x700) :
    AtInstruction program 0 (Console.loaded config (assemble program) entropy).machine where
  code k hk := by
    have hlt : k < (assemble program).length := by rwa [length_assemble]
    show (Memory.ofProgram (assemble program)).bytes[0x200 + k]? = (assemble program)[k]?
    rw [Memory.getElem?_ofProgram _ (by omega), if_pos (by omega), Nat.add_sub_cancel_left,
      List.getElem?_eq_getElem hlt]
    rfl
  pc := rfl

end

namespace Console

/-! ### Runs -/

section

variable {program : List Instruction} (hlength : program.length ≤ 0x700)
  (hread : ∀ instr ∈ program, Instruction.decode? instr.opcode = some instr)
  (hstraight : ∀ instr ∈ program, instr.isStraight = true)
include hlength hread hstraight

/-- The step from instruction number `j`, if it succeeds, leads to the next instruction. -/
theorem atInstruction_step {c : Console} {j : Nat} (h : AtInstruction program j c.machine)
    (hj : j < program.length) (hok : ∃ instr, c.step.result = .ok instr)
    (hspares : program[j].SparesProgram c.machine (2 * program.length)) :
    AtInstruction program (j + 1) c.step.console.machine := by
  have hmem : program[j] ∈ program := List.getElem_mem hj
  cases hfault : (program[j].execute c.machine.advance).fault with
  | some fault =>
    -- A fault would have been the result of the step.
    obtain ⟨instr, hok⟩ := hok
    rw [step_of_fault (h.fetch hj) (hread _ hmem) hfault] at hok
    exact nomatch hok
  | none =>
    rw [step_of_done (h.fetch hj) (hread _ hmem) hfault]
    exact h.execute (by omega) (hstraight _ hmem) hspares

/-- After `j` steps that succeeded and spared the program, instruction number `j` is next. -/
theorem atInstruction_afterSteps {c : Console} (h : AtInstruction program 0 c.machine) {j : Nat}
    (hj : j ≤ program.length)
    (hran : ∀ (k : Nat) (hk : k < j), (∃ instr, (c.afterSteps k).step.result = .ok instr) ∧
      program[k].SparesProgram (c.afterSteps k).machine (2 * program.length)) :
    AtInstruction program j (c.afterSteps j).machine := by
  induction j with
  | zero => exact h
  | succ j ih =>
    have hat := ih (by omega) fun k hk => hran k (by omega)
    obtain ⟨hok, hspares⟩ := hran j (by omega)
    rw [afterSteps_succ]
    exact atInstruction_step hlength hread hstraight hat (by omega) hok hspares

end

/-- An assembled program runs as written. Take a program of at most `0x700` straight
instructions, all of which some opcode stands for, and load its bytes. Suppose that the steps
before number `j` succeeded and wrote no byte of the program. Then step number `j` fetches the
opcode of instruction number `j` and executes this instruction: if it can be executed, it is
the result of the step, with the machine that it leaves and the program counter at the next
instruction, and otherwise its fault is the result, with the console and the program counter
where they were. -/
theorem assembled_program_runs (config : Config) (seed : UInt64) (created entropy : Random.Key)
    (program : List Instruction) (hlength : program.length ≤ 0x700)
    (hdecode : ∀ instr ∈ program, ∃ w, Instruction.decode? w = some instr)
    (hstraight : ∀ instr ∈ program, instr.isStraight = true) :
    let load := (ofConfig (config.withSeed seed) created).load (assemble program) entropy
    load.result = .ok () ∧
    ∀ (j : Nat) (hj : j < program.length),
      (∀ (k : Nat) (hk : k < j),
        (∃ instr, (load.console.afterSteps k).step.result = .ok instr) ∧
        program[k].SparesProgram (load.console.afterSteps k).machine (2 * program.length)) →
      let c := load.console.afterSteps j
      let outcome := program[j].execute c.machine.advance
      c.machine.pc.toNat = 0x200 + 2 * j ∧ c.fetch = .ok program[j].opcode ∧
      (outcome.fault = none →
        c.step.result = .ok program[j] ∧ c.step.console.machine = outcome.machine ∧
        c.step.console.machine.pc.toNat = 0x200 + 2 * (j + 1)) ∧
      (∀ fault, outcome.fault = some fault →
        c.step.result = .error fault ∧ c.step.console = c) := by
  intro load
  have hread : ∀ instr ∈ program, Instruction.decode? instr.opcode = some instr := by
    intro instr hmem
    obtain ⟨w, hw⟩ := hdecode instr hmem
    exact Instruction.decode?_opcode_of_decode? hw
  have hfits : (assemble program).length ≤ Memory.programLimit := by
    rw [length_assemble]
    show 2 * program.length ≤ 0xE00
    omega
  have hload : load = ⟨.ok (), loaded (config.withSeed seed) (assemble program) entropy,
      [.loaded (assemble program).length]⟩ := load_of_fits _ hfits entropy
  have hstart : AtInstruction program 0 load.console.machine := by
    rw [hload]
    exact atInstruction_loaded _ entropy hlength
  refine ⟨by rw [hload], ?_⟩
  intro j hj hran c outcome
  have hat : AtInstruction program j c.machine :=
    atInstruction_afterSteps hlength hread hstraight hstart (by omega) hran
  have hmem : program[j] ∈ program := List.getElem_mem hj
  refine ⟨hat.pc, hat.fetch hj, ?_, ?_⟩
  · intro hdone
    rw [step_of_done (hat.fetch hj) (hread _ hmem) hdone]
    refine ⟨rfl, rfl, ?_⟩
    show (program[j].execute c.machine.advance).machine.pc.toNat = 0x200 + 2 * (j + 1)
    rw [Instruction.pc_execute (hstraight _ hmem), hat.toNat_pc_advance (by omega)]
  · intro fault hfault
    rw [step_of_fault (hat.fetch hj) (hread _ hmem) hfault]
    exact ⟨rfl, rfl⟩

/-- Stores one register in the last byte of memory, and then two, which do not fit. -/
def storeAtEnd : List Instruction :=
  [.setIndex 0xFFF, .storeRegisters 0x0, .storeRegisters 0x1]

/-- The first store spares the program and succeeds, and the second fails where it stands. -/
theorem assembled_program_runs_storeAtEnd :
    let c := ((ofConfig (({} : Config).withSeed 7) .zero).load (assemble storeAtEnd) .zero).console
    (storeAtEnd.length ≤ 0x700 ∧
      (∀ instr ∈ storeAtEnd, ∃ w, Instruction.decode? w = some instr) ∧
      (∀ instr ∈ storeAtEnd, instr.isStraight = true)) ∧
    (∀ (k : Nat) (hk : k < 2), (∃ instr, (c.afterSteps k).step.result = .ok instr) ∧
      (storeAtEnd.get ⟨k, Nat.lt_succ_of_lt hk⟩).SparesProgram (c.afterSteps k).machine 6) ∧
    (c.afterSteps 2).fetch = .ok 0xF155 ∧
    (c.afterSteps 2).step.result = .error (.outOfBounds 0x1000) ∧
    (c.afterSteps 2).step.console = c.afterSteps 2 := by
  intro c
  have hdecode : ∀ instr ∈ storeAtEnd, ∃ w, Instruction.decode? w = some instr := by
    intro instr hmem
    refine ⟨instr.opcode, ?_⟩
    revert instr
    decide
  have hstraight : ∀ instr ∈ storeAtEnd, instr.isStraight = true := by decide
  have hran : ∀ (k : Nat) (hk : k < 2), (∃ instr, (c.afterSteps k).step.result = .ok instr) ∧
      (storeAtEnd.get ⟨k, Nat.lt_succ_of_lt hk⟩).SparesProgram (c.afterSteps k).machine 6 := by
    intro k hk
    cases k with
    | zero =>
      have hok : (c.afterSteps 0).step.result = .ok (.setIndex 0xFFF) := by decide +kernel
      -- Nothing is written.
      exact ⟨⟨_, hok⟩, fun a hle hlt => absurd hlt (Nat.not_lt.mpr hle)⟩
    | succ k =>
      obtain rfl : k = 0 := by omega
      have hok : (c.afterSteps 1).step.result = .ok (.storeRegisters 0x0) := by decide +kernel
      have hindex : 0x206 ≤ (c.afterSteps 1).machine.index.toNat := by decide +kernel
      exact ⟨⟨_, hok⟩, fun a hle _ => .inr (Nat.le_trans hindex hle)⟩
  have hexec : (storeAtEnd[2].execute (c.afterSteps 2).machine.advance).fault
      = some (.outOfBounds 0x1000) := by decide +kernel
  obtain ⟨-, hruns⟩ := assembled_program_runs {} 7 .zero .zero storeAtEnd (by decide) hdecode
    hstraight
  obtain ⟨-, hfetch, -, hfault⟩ := hruns 2 (by decide) hran
  obtain ⟨hresult, hconsole⟩ := hfault _ hexec
  exact ⟨⟨by decide, hdecode, hstraight⟩, hran, hfetch, hresult, hconsole⟩

end Console

end Chip8
