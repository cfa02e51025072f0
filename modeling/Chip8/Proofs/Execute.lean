import Chip8.Machine.Execute
import Chip8.Proofs.MemoryAccess

/-!
# `Chip8.Proofs.Execute`: what an instruction leaves alone

An instruction that fails leaves the machine as it found it
(`machine_execute_of_fault`). One that succeeds changes the components of the machine that
`Instruction.changes` lists, and `same_execute` says that it leaves every other one alone.
Runs of whole programs rest on three consequences:

* `pc_execute`: an instruction that does not steer keeps the program counter.
* `getElem?_memory_execute`: memory changes from the index on, and there for as many
  bytes as the instruction writes.
* `screen_execute`: an instruction that neither clears the screen nor draws keeps it.

Five instructions can fail: the return, and the four that access memory. Each of the
four is an `Outcome.ofPart`, so `Outcome.machine_ofPart_of_fault` and `Outcome.machine_ofPart`
say what such an operation leaves alone, and the cases of the instructions apply them.
-/

set_option autoImplicit false

namespace Chip8

/-! ### Operations that put a part in its place -/

namespace Outcome

variable {α β : Type} {m : Machine} {part : Except Fault α} {put : α → Machine}

/-- Without the part, the machine is left alone. -/
theorem machine_ofPart_of_fault {fault : Fault} (h : (ofPart m part put).fault = some fault) :
    (ofPart m part put).machine = m := by
  cases part with
  | error _ => rfl
  | ok a => exact nomatch h

/-- What holds of the machine, and of it with any part in its place, holds afterwards. -/
theorem machine_ofPart {P : Machine → Prop} (hm : P m) (hput : ∀ a, P (put a)) :
    P (ofPart m part put).machine := by
  cases part with
  | error _ => exact hm
  | ok a => exact hput a

/-- What no part changes stays, whether the part could be had or not. -/
theorem ofPart_keeps (f : Machine → β) (h : ∀ a, f (put a) = f m) :
    f (ofPart m part put).machine = f m :=
  machine_ofPart (P := (f · = f m)) rfl h

/-- The operation succeeds if and only if the part can be had. -/
theorem fault_ofPart_eq_none_iff : (ofPart m part put).fault = none ↔ ∃ a, part = .ok a := by
  cases part with
  | error fault => simp [ofPart]
  | ok a => simp [ofPart]

/-- It fails as the part does. -/
theorem fault_ofPart_iff {fault : Fault} :
    (ofPart m part put).fault = some fault ↔ part = .error fault := by
  cases part with
  | error _ => simp only [ofPart, Option.some.injEq, Except.error.injEq]
  | ok _ => simp only [ofPart, reduceCtorEq]

end Outcome

/-! ### Writes to memory -/

/-- A write to memory, that failed or not, leaves the bytes outside of its range. -/
theorem Machine.getElem?_memory_write (m : Machine) {address : Nat} {bytes : List UInt8} {k : Nat}
    (hk : k < address ∨ address + bytes.length ≤ k) :
    (m.write address bytes).machine.memory.bytes[k]? = m.memory.bytes[k]? := by
  unfold write
  cases h : m.memory.write address bytes with
  | error _ => rfl
  | ok memory => exact Memory.getElem?_write h hk

/-! ### Operations on registers -/

/-- An operation on two registers changes the registers alone. -/
theorem Machine.combine_eq (m : Machine) (op : AluOp) (x y : UInt8) :
    ∃ registers, m.combine op x y = { m with registers } := by
  unfold combine
  obtain ⟨value, flag⟩ := op.eval m.dialect (m.registers.get x) (m.registers.get y)
  cases flag with
  | none => exact ⟨_, rfl⟩
  | some raised => exact ⟨_, rfl⟩

/-- The registers up to `x` are one more than the number of `x`. -/
theorem Registers.length_upTo (r : Registers) (x : UInt8) : (r.upTo x).length = slot x + 1 := by
  have := (slot x).isLt
  simp only [upTo, toList, List.length_take, Vector.length_toList]
  omega

namespace Instruction

/-! ### Failures -/

/-- An instruction that fails leaves the machine as it found it. -/
theorem machine_execute_of_fault {instr : Instruction} {m : Machine} {fault : Fault}
    (h : (instr.execute m).fault = some fault) : (instr.execute m).machine = m := by
  cases instr with
  | ret =>
    show m.returnFromCall.machine = m
    replace h : m.returnFromCall.fault = some fault := h
    unfold Machine.returnFromCall at h ⊢
    -- The return fails on an empty stack only, before anything was taken from it.
    split at h
    · rfl
    · exact nomatch h
  | draw x y height => exact Outcome.machine_ofPart_of_fault h
  | storeDecimal x => exact Outcome.machine_ofPart_of_fault h
  | storeRegisters x => exact Outcome.machine_ofPart_of_fault h
  | loadRegisters x => exact Outcome.machine_ofPart_of_fault h
  | awaitKey x =>
    simp only [execute] at h
    split at h <;> exact nomatch h
  | _ => exact nomatch h

/-! ### The components that an instruction changes -/

end Instruction

/-- The components of a machine. -/
inductive Machine.Component where
  | registers
  | index
  | pc
  | calls
  | delay
  | sound
  | memory
  | keypad
  | screen
  | random
  | dialect
  deriving DecidableEq

/-- Two machines agree in a component. -/
def Machine.Component.Same (m n : Machine) : Component → Prop
  | .registers => m.registers = n.registers
  | .index => m.index = n.index
  | .pc => m.pc = n.pc
  | .calls => m.calls = n.calls
  | .delay => m.delay = n.delay
  | .sound => m.sound = n.sound
  | .memory => m.memory = n.memory
  | .keypad => m.keypad = n.keypad
  | .screen => m.screen = n.screen
  | .random => m.random = n.random
  | .dialect => m.dialect = n.dialect

/-- A machine agrees with itself in every component. -/
theorem Machine.Component.same_refl (m : Machine) (p : Component) : p.Same m m := by
  cases p <;> rfl

namespace Instruction

open Machine (Component)

/-- The components that the instruction may change. -/
def changes : Instruction → List Component
  | .system _ | .glyph _ => []
  | .clearScreen => [.screen]
  | .ret | .call _ => [.pc, .calls]
  | .jump _ | .jumpOffset _ | .skip _ => [.pc]
  | .load .. | .addByte .. | .alu .. | .readDelay _ | .loadRegisters _ => [.registers]
  | .setIndex _ | .addIndex _ => [.index]
  | .random .. => [.registers, .random]
  | .draw .. => [.registers, .screen]
  | .awaitKey _ => [.registers, .pc]
  | .setDelay _ => [.delay]
  | .setSound _ => [.sound]
  | .storeDecimal _ | .storeRegisters _ => [.memory]

/-- An instruction leaves every other component alone, whether it fails or not. -/
theorem same_execute {instr : Instruction} {p : Component} (h : p ∉ instr.changes) (m : Machine) :
    p.Same (instr.execute m).machine m := by
  -- Each instruction is an update of the listed fields, so the fields of the others are equal.
  cases instr with
  | ret =>
    show p.Same m.returnFromCall.machine m
    unfold Machine.returnFromCall
    split
    · exact p.same_refl m
    · cases p <;> simp_all [changes, Component.Same, Outcome.done]
  | skip condition =>
    show p.Same (if condition.holds m then m.advance else m) m
    split
    · cases p <;> simp_all [changes, Component.Same, Machine.advance]
    · exact p.same_refl m
  | alu op x y =>
    obtain ⟨registers, hr⟩ := m.combine_eq op x y
    show p.Same (m.combine op x y) m
    rw [hr]
    cases p <;> simp_all [changes, Component.Same]
  | awaitKey x =>
    simp only [execute]
    split
    · cases p <;> simp_all [changes, Component.Same, Outcome.done, Machine.setRegister]
    · cases p <;> simp_all [changes, Component.Same, Outcome.done, Machine.rewind]
  | draw | storeDecimal | storeRegisters | loadRegisters =>
    refine Outcome.machine_ofPart (P := (p.Same · m)) (p.same_refl m) fun _ => ?_
    cases p <;> simp_all [changes, Component.Same, Machine.setFlag]
  | _ =>
    cases p <;> simp_all [changes, Component.Same, execute, Outcome.done, Machine.setRegister,
      Machine.drawRandom]

/-! ### The keypad and the dialect -/

/-- No instruction changes the keypad, whether it fails or not. -/
theorem keypad_execute (instr : Instruction) (m : Machine) :
    (instr.execute m).machine.keypad = m.keypad := by
  have hkept : .keypad ∉ instr.changes := by
    cases instr <;> simp [changes]
  exact same_execute hkept m

/-- No instruction changes the dialect. -/
theorem dialect_execute (instr : Instruction) (m : Machine) :
    (instr.execute m).machine.dialect = m.dialect := by
  have hkept : .dialect ∉ instr.changes := by
    cases instr <;> simp [changes]
  exact same_execute hkept m

/-! ### The program counter -/

/-- Whether the instruction leaves the program counter where it is: it neither jumps nor
skips, calls, returns or waits. -/
def isStraight : Instruction → Bool
  | .ret | .jump _ | .call _ | .skip _ | .jumpOffset _ | .awaitKey _ => false
  | _ => true

/-- A straight instruction leaves the program counter alone. -/
theorem pc_execute {instr : Instruction} (h : instr.isStraight = true) (m : Machine) :
    (instr.execute m).machine.pc = m.pc := by
  have hkept : .pc ∉ instr.changes := by
    cases instr <;> simp_all [isStraight, changes]
  exact same_execute hkept m

/-! ### Memory -/

/-- How many bytes of memory the instruction writes, from the index on. -/
def bytesWritten : Instruction → Nat
  | .storeDecimal _ => 3
  | .storeRegisters x => Registers.slot x + 1
  | _ => 0

/-- An instruction that writes no byte leaves memory alone. -/
theorem memory_execute {instr : Instruction} (h : instr.bytesWritten = 0) (m : Machine) :
    (instr.execute m).machine.memory = m.memory := by
  have hkept : .memory ∉ instr.changes := by
    cases instr <;> simp_all [bytesWritten, changes]
  exact same_execute hkept m

/-- An instruction changes memory from the index on, and no more bytes than it writes. -/
theorem getElem?_memory_execute (instr : Instruction) (m : Machine) {k : Nat}
    (hk : k < m.index.toNat ∨ m.index.toNat + instr.bytesWritten ≤ k) :
    (instr.execute m).machine.memory.bytes[k]? = m.memory.bytes[k]? := by
  cases instr with
  | storeDecimal x => exact m.getElem?_memory_write hk
  | storeRegisters x =>
    refine m.getElem?_memory_write ?_
    rw [Registers.length_upTo]
    exact hk
  | _ => rw [memory_execute rfl]

/-! ### The screen -/

/-- An instruction that does not touch the screen leaves it alone. -/
theorem screen_execute {instr : Instruction} (h : instr.touchesScreen = false) (m : Machine) :
    (instr.execute m).machine.screen = m.screen := by
  have hkept : .screen ∉ instr.changes := by
    cases instr <;> simp_all [touchesScreen, changes]
  exact same_execute hkept m

end Instruction

end Chip8
