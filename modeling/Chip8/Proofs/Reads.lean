import Chip8.Proofs.Execute

/-!
# `Chip8.Proofs.Reads`: what an instruction looks at

`Instruction.reads` lists the components of the machine that decide what an instruction does,
beside `Instruction.changes`, which lists the ones that it changes. `same_execute_of_reads` says
that the list is complete: of two machines that agree in everything that an instruction reads,
it makes two that agree in every component in which the two agreed. So what a
machine keeps in a component flows nowhere as long as no instruction is executed that reads it.

Some entries are worth a remark. A random byte of which the mask keeps no bit is not looked at. The
delay is read by one instruction, the keypad by three, the dialect by operations on two registers
alone, and the sound by none.
-/

set_option autoImplicit false

namespace Chip8

open Machine (Component)

namespace Machine.Component

variable {p : Component} {m n o : Machine}

/-- Agreeing in a component is symmetric. -/
theorem Same.symm (h : p.Same m n) : p.Same n m := by
  cases p <;> exact Eq.symm h

/-- Agreeing in a component is transitive. -/
theorem Same.trans (h : p.Same m n) (h' : p.Same n o) : p.Same m o := by
  cases p <;> exact Eq.trans h h'

end Machine.Component

/-- The components that decide whether the condition holds. -/
def Condition.reads : Condition → List Component
  | .byteEq .. | .byteNe .. | .registerEq .. | .registerNe .. => [.registers]
  | .keyDown _ | .keyUp _ => [.registers, .keypad]

/-- Interpreters disagree on the operation, and the dialect settles it. -/
def AluOp.readsDialect : AluOp → Bool
  | .or | .and | .xor | .shiftRight | .shiftLeft => true
  | .copy | .add | .sub | .subFrom => false

/-- The components that decide what the instruction does. -/
def Instruction.reads : Instruction → List Component
  | .system _ | .glyph _ | .clearScreen | .jump _ | .load .. | .setIndex _ => []
  | .ret => [.calls]
  | .call _ => [.pc, .calls]
  | .skip condition => .pc :: condition.reads
  | .addByte .. | .jumpOffset _ | .setDelay _ | .setSound _ => [.registers]
  | .alu op .. => .registers :: if op.readsDialect then [.dialect] else []
  | .random _ mask => if mask = 0 then [] else [.random]
  | .draw .. => [.registers, .index, .memory, .screen]
  | .readDelay _ => [.delay]
  | .awaitKey _ => [.pc, .keypad]
  | .addIndex _ => [.registers, .index]
  | .storeDecimal _ | .storeRegisters _ => [.registers, .index, .memory]
  | .loadRegisters _ => [.index, .memory]

/-! ### The remarks -/

namespace Instruction

/-- Random bytes are read by the instruction for them, unless its mask drops every bit. -/
theorem random_mem_reads_iff {instr : Instruction} :
    .random ∈ instr.reads ↔ ∃ x mask, instr = .random x mask ∧ mask ≠ 0 := by
  cases instr with
  | random x mask => by_cases hmask : mask = 0 <;> simp [reads, hmask, and_assoc]
  | skip condition => cases condition <;> simp [reads, Condition.reads]
  | _ => simp [reads]

/-- Only one instruction reads the delay timer. -/
theorem delay_mem_reads_iff {instr : Instruction} :
    .delay ∈ instr.reads ↔ ∃ x, instr = .readDelay x := by
  cases instr with
  | skip condition => cases condition <;> simp [reads, Condition.reads]
  | _ => simp [reads]

/-- The instructions that read the keypad are the skips on a key and the wait for one. -/
theorem keypad_mem_reads_iff {instr : Instruction} :
    .keypad ∈ instr.reads ↔
      ∃ x, instr = .skip (.keyDown x) ∨ instr = .skip (.keyUp x) ∨ instr = .awaitKey x := by
  cases instr with
  | skip condition => cases condition <;> simp [reads, Condition.reads]
  | _ => simp [reads]

/-- The dialect is read by the operations that it is about, and by nothing else. -/
theorem dialect_mem_reads_iff {instr : Instruction} :
    .dialect ∈ instr.reads ↔ ∃ op x y, instr = .alu op x y ∧ op.readsDialect = true := by
  cases instr with
  | alu op x y => cases op <;> simp [reads, AluOp.readsDialect]
  | skip condition => cases condition <;> simp [reads, Condition.reads]
  | _ => simp [reads]

/-- No instruction reads the sound timer. -/
theorem sound_notMem_reads (instr : Instruction) : .sound ∉ instr.reads := by
  cases instr with
  | skip condition => cases condition <;> simp [reads, Condition.reads]
  | _ => simp [reads]

end Instruction

/-! ### Conditions and register operations -/

variable {m n : Machine}

/-- A condition holds alike on machines that agree in what it reads. -/
theorem Condition.holds_congr {condition : Condition}
    (h : ∀ q ∈ condition.reads, q.Same m n) : condition.holds m = condition.holds n := by
  cases condition <;> simp_all [reads, holds, Component.Same]

/-- An operation yields the same in two dialects, if it does not read the dialect. -/
theorem AluOp.eval_congr {op : AluOp} {d d' : Dialect} (h : op.readsDialect = true → d = d')
    (a b : UInt8) : op.eval d a b = op.eval d' a b := by
  cases op <;> simp_all [readsDialect, eval]

/-- Two machines with the same registers combine two of them alike if the operation comes out alike
in the dialects of the two. -/
theorem Machine.registers_combine_congr {op : AluOp} {x y : UInt8}
    (hregisters : m.registers = n.registers)
    (heval : op.eval m.dialect (m.registers.get x) (m.registers.get y)
      = op.eval n.dialect (m.registers.get x) (m.registers.get y)) :
    (m.combine op x y).registers = (n.combine op x y).registers := by
  rw [hregisters] at heval
  simp only [combine, hregisters, heval]
  split <;> simp [setRegister, setFlag, hregisters]

/-- A write of the same bytes to the same memory leaves the same memory. -/
theorem Machine.memory_write_congr (h : m.memory = n.memory) (address : Nat)
    (bytes : List UInt8) :
    (m.write address bytes).machine.memory = (n.write address bytes).machine.memory := by
  simp only [write, h]
  cases n.memory.write address bytes with
  | error fault => exact h
  | ok memory => rfl

/-! ### Instructions -/

namespace Instruction

/-- An instruction takes two machines that agree in what it reads, and in a component that it
changes, to machines that agree in this component. -/
theorem same_execute_of_mem_changes {instr : Instruction} {p : Component}
    (hreads : ∀ q ∈ instr.reads, q.Same m n) (hp : p ∈ instr.changes) (h : p.Same m n) :
    p.Same (instr.execute m).machine (instr.execute n).machine := by
  cases instr with
  | ret =>
    have hcalls : m.calls = n.calls := hreads .calls (by simp [reads])
    show p.Same m.returnFromCall.machine n.returnFromCall.machine
    unfold Machine.returnFromCall
    rw [hcalls]
    split
    · exact h
    · cases p <;> simp_all [changes, Component.Same, Outcome.done]
  | skip condition =>
    have hholds : condition.holds m = condition.holds n :=
      Condition.holds_congr fun q hq => hreads q (List.mem_cons_of_mem _ hq)
    obtain rfl : p = .pc := by simpa [changes] using hp
    show (if condition.holds m then m.advance else m).pc
      = (if condition.holds n then n.advance else n).pc
    rw [hholds]
    split
    · exact congrArg (· + UInt16.ofNat Opcode.size) h
    · exact h
  | alu op x y =>
    obtain rfl : p = .registers := by simpa [changes] using hp
    refine Machine.registers_combine_congr h (AluOp.eval_congr (fun hop => ?_) _ _)
    exact hreads .dialect (by simp [reads, hop])
  | random x mask =>
    -- The byte is the same, or no bit of it is kept.
    have hbyte : m.random.next.1 &&& mask = n.random.next.1 &&& mask := by
      by_cases hmask : mask = 0
      · rw [hmask, UInt8.and_zero, UInt8.and_zero]
      · have hrandom : m.random = n.random := hreads .random (by simp [reads, hmask])
        rw [hrandom]
    cases p <;> simp_all [changes, Component.Same, execute, Outcome.done, Machine.setRegister,
      Machine.drawRandom]
  | draw x y height =>
    have hregisters : m.registers = n.registers := hreads .registers (by simp [reads])
    have hindex : m.index = n.index := hreads .index (by simp [reads])
    have hmemory : m.memory = n.memory := hreads .memory (by simp [reads])
    have hscreen : m.screen = n.screen := hreads .screen (by simp [reads])
    simp only [execute, Machine.drawSprite, hregisters, hindex, hmemory, hscreen]
    cases n.memory.read n.index.toNat (height.toNat % 0x10) with
    | error fault => exact h
    | ok sprite =>
      cases p <;> simp_all [changes, Component.Same, Outcome.ofPart, Machine.setFlag]
  | awaitKey x =>
    have hkeypad : m.keypad = n.keypad := hreads .keypad (by simp [reads])
    simp only [execute, hkeypad]
    split <;> cases p <;>
      simp_all [changes, Component.Same, Outcome.done, Machine.setRegister, Machine.rewind]
  | storeDecimal x | storeRegisters x =>
    have hregisters : m.registers = n.registers := hreads .registers (by simp [reads])
    have hindex : m.index = n.index := hreads .index (by simp [reads])
    have hmemory : m.memory = n.memory := hreads .memory (by simp [reads])
    obtain rfl : p = .memory := by simpa [changes] using hp
    simp only [execute, hregisters, hindex]
    exact Machine.memory_write_congr hmemory _ _
  | loadRegisters x =>
    have hindex : m.index = n.index := hreads .index (by simp [reads])
    have hmemory : m.memory = n.memory := hreads .memory (by simp [reads])
    obtain rfl : p = .registers := by simpa [changes] using hp
    simp only [execute, Machine.loadRegisters, hindex, hmemory]
    cases n.memory.read n.index.toNat (Registers.slot x + 1) with
    | error fault => exact h
    | ok bytes => exact congrArg (·.fill bytes) h
  | _ =>
    cases p <;> simp_all [changes, reads, Component.Same, execute, Outcome.done,
      Machine.setRegister]

/-- A component in which two machines agree has to be looked at only if the instruction changes
it. -/
theorem same_execute_of_changes {instr : Instruction} {p : Component} (h : p.Same m n)
    (hchanges : p ∈ instr.changes → p.Same (instr.execute m).machine (instr.execute n).machine) :
    p.Same (instr.execute m).machine (instr.execute n).machine := by
  by_cases hp : p ∈ instr.changes
  · exact hchanges hp
  · exact ((same_execute hp m).trans h).trans (same_execute hp n).symm

/-- Two machines that agree in what an instruction reads agree after it in every component in
which they agreed. -/
theorem same_execute_of_reads {instr : Instruction} (hreads : ∀ q ∈ instr.reads, q.Same m n)
    {p : Component} (h : p.Same m n) :
    p.Same (instr.execute m).machine (instr.execute n).machine :=
  same_execute_of_changes h fun hp => same_execute_of_mem_changes hreads hp h

end Instruction

end Chip8
