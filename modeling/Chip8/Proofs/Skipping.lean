import Chip8.Proofs.StraightLine
import Chip8.Proofs.Steering
import Chip8.Proofs.Truncation

/-!
# `Chip8.Proofs.Skipping`: what a skip does, and its opposite

Six opcodes test something and skip the next instruction if the test succeeds.
`Opcode.Skips` reads the test off the opcode, before it is decoded: a register against the byte
of the opcode, two registers against each other, or the key whose number is in a register.
`skips_iff_holds` says that the condition of the decoded instruction is this test.

A step over such an opcode always succeeds, and the program counter is all that it changes
(`console_step_of_skip`). The opcodes come in pairs, of which one tests the opposite of the
other. To compare both on one state, `Console.holding` puts an opcode where the program counter
points, and `oneSkips_of_not` says that of two opposite ones exactly one skips.
-/

set_option autoImplicit false

namespace Chip8

/-- Key `k` is on the pad and down. -/
def Keypad.Holds (pad : Keypad) (k : UInt8) : Prop :=
  ∃ h : k.toNat < 16, pad.down[k.toNat] = true

/-- A key is down exactly when it is on the pad and its place says so. -/
theorem Keypad.isDown_iff_holds (pad : Keypad) (k : UInt8) :
    pad.isDown k = true ↔ pad.Holds k := by
  unfold isDown Holds
  by_cases hk : k.toNat < 16 <;> simp [hk]

/-- What an opcode that stands for a skip tests is the case. -/
def Opcode.Skips (w : Opcode) (m : Machine) : Prop :=
  match w.family with
  | 0x3 => m.registers.get w.x = w.byte
  | 0x4 => m.registers.get w.x ≠ w.byte
  | 0x5 => m.registers.get w.x = m.registers.get w.y
  | 0x9 => m.registers.get w.x ≠ m.registers.get w.y
  | 0xE =>
    if w.byte = 0x9E then m.keypad.Holds (m.registers.get w.x)
    else ¬ m.keypad.Holds (m.registers.get w.x)
  | _ => False

/-! ### The test of an opcode -/

section Tests

open Opcode

variable (m : Machine) (x y value : UInt8)

/-- `3xnn` skips if the register holds the byte. -/
theorem Opcode.skips_byteEq : (ofByte 0x3 x value).Skips m ↔ m.registers.get x = value := by
  simp only [Skips, family_ofByte, x_ofByte, byte_ofByte, Nat.reduceLT, Registers.get_mod]

/-- `4xnn` skips if the register holds another byte. -/
theorem Opcode.skips_byteNe : (ofByte 0x4 x value).Skips m ↔ m.registers.get x ≠ value := by
  simp only [Skips, family_ofByte, x_ofByte, byte_ofByte, Nat.reduceLT, Registers.get_mod]

/-- `5xy0` skips if the registers hold the same. -/
theorem Opcode.skips_registerEq :
    (ofNibbles 0x5 x y 0x0).Skips m ↔ m.registers.get x = m.registers.get y := by
  simp only [Skips, family_ofNibbles, x_ofNibbles, y_ofNibbles, Nat.reduceLT, Registers.get_mod]

/-- `9xy0` skips if the registers hold different bytes. -/
theorem Opcode.skips_registerNe :
    (ofNibbles 0x9 x y 0x0).Skips m ↔ m.registers.get x ≠ m.registers.get y := by
  simp only [Skips, family_ofNibbles, x_ofNibbles, y_ofNibbles, Nat.reduceLT, Registers.get_mod]

/-- `Ex9E` skips if the key that the register names is down. -/
theorem Opcode.skips_keyDown :
    (ofByte 0xE x 0x9E).Skips m ↔ m.keypad.Holds (m.registers.get x) := by
  simp only [Skips, family_ofByte, x_ofByte, byte_ofByte, Nat.reduceLT, Registers.get_mod, if_true]

/-- `ExA1` skips if the key that the register names is not down. -/
theorem Opcode.skips_keyUp :
    (ofByte 0xE x 0xA1).Skips m ↔ ¬ m.keypad.Holds (m.registers.get x) := by
  have hcode : (0xA1 : UInt8) ≠ 0x9E := by decide
  simp only [Skips, family_ofByte, x_ofByte, byte_ofByte, Nat.reduceLT, Registers.get_mod,
    if_neg hcode]

end Tests

/-- The test of an opcode is the condition of the skip that it stands for. -/
theorem Opcode.skips_iff_holds {w : Opcode} {condition : Condition}
    (h : Instruction.decode? w = some (.skip condition)) (m : Machine) :
    w.Skips m ↔ condition.holds m = true := by
  rw [← Instruction.opcode_of_decode? h]
  cases condition with
  | byteEq x value => simp [Instruction.opcode, skips_byteEq, Condition.holds]
  | byteNe x value => simp [Instruction.opcode, skips_byteNe, Condition.holds]
  | registerEq x y => simp [Instruction.opcode, skips_registerEq, Condition.holds]
  | registerNe x y => simp [Instruction.opcode, skips_registerNe, Condition.holds]
  | keyDown x =>
    simp [Instruction.opcode, skips_keyDown, Condition.holds, Keypad.isDown_iff_holds]
  | keyUp x =>
    simp [Instruction.opcode, skips_keyUp, Condition.holds, ← Keypad.isDown_iff_holds]

/-- Moving on changes nothing that a condition looks at. -/
theorem Condition.holds_advance (condition : Condition) (m : Machine) :
    condition.holds m.advance = condition.holds m := by
  cases condition <;> rfl

namespace Console

variable {c : Console} {w : Opcode} {condition : Condition}

/-! ### The step of a skip -/

/-- The console with its program counter moved on. -/
def movedOn (c : Console) (n : UInt16) : Console :=
  { c with machine := { c.machine with pc := c.machine.pc + n } }

/-- A step over a skip moves on by one instruction or by two, and changes nothing else. -/
theorem console_step_of_skip (hfetch : c.fetch = .ok w)
    (hdecode : Instruction.decode? w = some (.skip condition)) :
    c.step.console = c.movedOn (if condition.holds c.machine then 4 else 2) := by
  rw [step_of_done hfetch hdecode rfl]
  simp only [executed, Instruction.execute, Outcome.done, Condition.holds_advance,
    Instruction.touchesScreen, Bool.or_false, movedOn]
  split
  · -- Twice two bytes.
    simp only [Machine.advance, UInt16.add_assoc]
    rfl
  · rfl

/-- The program counter of a console that fetched an opcode is moved on without a wrap. -/
theorem toNat_pc_movedOn (hfetch : c.fetch = .ok w) {n : UInt16} (hn : n.toNat ≤ 4) :
    (c.movedOn n).machine.pc.toNat = c.machine.pc.toNat + n.toNat := by
  have hlt := Machine.pc_lt_of_fetch hfetch
  simp only [movedOn, UInt16.toNat_add]
  omega

/-! ### Two opcodes on one state -/

/-- The console with another opcode where its program counter points. -/
def holding (c : Console) (w : Opcode) : Console :=
  { c with machine := { c.machine with
      memory := c.machine.memory.store c.machine.pc.toNat w.bytes } }

/-- This opcode is fetched. -/
theorem fetch_holding (hpc : c.machine.pc.toNat < 0xFFF) (w : Opcode) :
    (c.holding w).fetch = .ok w := by
  have hbyte (k : Nat) (hk : k < 2) :
      (c.holding w).machine.memory.bytes[c.machine.pc.toNat + k]? = w.bytes[k]? := by
    have hlength : w.bytes.length = 2 := rfl
    simp only [holding]
    rw [Memory.getElem?_store, if_pos (by omega), Nat.add_sub_cancel_left]
  have hread := Memory.readOpcode_of_bytes (hbyte 0 (by decide)) (hbyte 1 (by decide))
  rw [Opcode.ofBytes_bytes] at hread
  exact hread

/-- Of two opcodes, exactly one makes the console skip: its step moves on by four, and the step of
the other one by two. -/
def OneSkips (c : Console) (w w' : Opcode) : Prop :=
  let moves (w : Opcode) (n : Nat) : Prop :=
    (c.holding w).step.console.machine.pc.toNat = c.machine.pc.toNat + n
  (moves w 4 ∧ moves w' 2) ∨ (moves w 2 ∧ moves w' 4)

/-- How far an opcode that is one of a skip moves the console on. -/
theorem toNat_pc_step_holding (hpc : c.machine.pc.toNat < 0xFFF)
    (hdecode : Instruction.decode? w = some (.skip condition)) :
    (c.holding w).step.console.machine.pc.toNat
      = c.machine.pc.toNat + if condition.holds c.machine then 4 else 2 := by
  have hfetch := fetch_holding hpc w
  -- No condition looks at memory.
  have hholds : condition.holds (c.holding w).machine = condition.holds c.machine := by
    cases condition <;> rfl
  rw [console_step_of_skip hfetch hdecode, hholds]
  split
  · exact toNat_pc_movedOn hfetch (by decide)
  · exact toNat_pc_movedOn hfetch (by decide)

/-- Of two skips with opposite conditions, exactly one skips. -/
theorem oneSkips_of_not (hpc : c.machine.pc.toNat < 0xFFF) {w w' : Opcode}
    {condition condition' : Condition}
    (hdecode : Instruction.decode? w = some (.skip condition))
    (hdecode' : Instruction.decode? w' = some (.skip condition'))
    (hnot : condition'.holds c.machine = !condition.holds c.machine) : c.OneSkips w w' := by
  simp only [OneSkips, toNat_pc_step_holding hpc hdecode, toNat_pc_step_holding hpc hdecode', hnot]
  cases condition.holds c.machine with
  | true => simp
  | false => simp

/-- Skips are exact and complementary. Take any console whose program counter points at the opcode
of a skip. Its step succeeds, moves the program counter on by four if the opcode's test succeeds
and by two if it does not, also behind the end of memory and never around it, and changes nothing
else. And put there, with any operands, the two opcodes of a pair: `3xnn` and `4xnn`, `5xy0` and
`9xy0`, or `Ex9E` and `ExA1`. Exactly one of the two skips. -/
theorem skips_are_exact (c : Console) (w : Opcode) (condition : Condition)
    (hfetch : c.fetch = .ok w) (hdecode : Instruction.decode? w = some (.skip condition)) :
    c.step.result = .ok (.skip condition) ∧
    (w.Skips c.machine → c.step.console = c.movedOn 4 ∧
      c.step.console.machine.pc.toNat = c.machine.pc.toNat + 4) ∧
    (¬ w.Skips c.machine → c.step.console = c.movedOn 2 ∧
      c.step.console.machine.pc.toNat = c.machine.pc.toNat + 2) ∧
    ∀ x y value : UInt8,
      c.OneSkips (.ofByte 0x3 x value) (.ofByte 0x4 x value) ∧
      c.OneSkips (.ofNibbles 0x5 x y 0x0) (.ofNibbles 0x9 x y 0x0) ∧
      c.OneSkips (.ofByte 0xE x 0x9E) (.ofByte 0xE x 0xA1) := by
  have hconsole := console_step_of_skip hfetch hdecode
  have htest := Opcode.skips_iff_holds hdecode c.machine
  refine ⟨?_, ?_, ?_, ?_⟩
  · rw [step_of_done hfetch hdecode rfl]
    rfl
  · intro hskips
    rw [if_pos (htest.mp hskips)] at hconsole
    rw [hconsole]
    exact ⟨rfl, toNat_pc_movedOn hfetch (by decide)⟩
  · intro hstays
    rw [if_neg fun h => hstays (htest.mpr h)] at hconsole
    rw [hconsole]
    exact ⟨rfl, toNat_pc_movedOn hfetch (by decide)⟩
  · intro x y value
    have hpc : c.machine.pc.toNat < 0xFFF := Machine.pc_lt_of_fetch hfetch
    have hread (condition : Condition) := Instruction.decode?_opcode_skip condition
    refine ⟨?_, ?_, ?_⟩
    · exact oneSkips_of_not hpc (hread (.byteEq x value)) (hread (.byteNe x value))
        (by simp [Condition.cut, Condition.holds, bne])
    · exact oneSkips_of_not hpc (hread (.registerEq x y)) (hread (.registerNe x y))
        (by simp [Condition.cut, Condition.holds, bne])
    · exact oneSkips_of_not hpc (hread (.keyDown x)) (hread (.keyUp x))
        (by simp [Condition.cut, Condition.holds])

/-- A console at the last opcode of memory, which tests a key that the pad does not have. -/
def asksAbsentKey : Console :=
  { ofConfig {} .zero with
    machine := { Machine.fresh {} with
      pc := 0xFFE
      registers := Registers.zero.set 0x2 0x13
      memory := Memory.zero.store 0xFFE [0xE2, 0xA1] } }

/-- No key of that number is down, so the step skips, behind the end of memory. -/
theorem skips_are_exact_asksAbsentKey :
    let c := asksAbsentKey
    (c.fetch = .ok 0xE2A1 ∧ Instruction.decode? 0xE2A1 = some (.skip (.keyUp 0x2))) ∧
    c.step.result = .ok (.skip (.keyUp 0x2)) ∧
    (Opcode.Skips 0xE2A1 c.machine ∧ c.step.console = c.movedOn 4 ∧
      c.step.console.machine.pc.toNat = 0x1002) ∧
    c.OneSkips 0xE29E 0xE2A1 := by
  intro c
  have hfetch : c.fetch = .ok 0xE2A1 := by decide +kernel
  have hdecode : Instruction.decode? 0xE2A1 = some (.skip (.keyUp 0x2)) := by decide
  obtain ⟨hresult, hskips, -, hpairs⟩ := skips_are_exact c 0xE2A1 (.keyUp 0x2) hfetch hdecode
  have htest : Opcode.Skips 0xE2A1 c.machine :=
    (Opcode.skips_iff_holds hdecode c.machine).mpr (by decide +kernel)
  obtain ⟨hconsole, hpc⟩ := hskips htest
  exact ⟨⟨hfetch, hdecode⟩, hresult, ⟨htest, hconsole, hpc⟩, (hpairs 0x2 0x0 0x0).2.2⟩

end Console

end Chip8
