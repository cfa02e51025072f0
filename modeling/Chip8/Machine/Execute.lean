import Chip8.Instruction
import Chip8.Machine

/-!
# `Chip8.Machine.Execute`: what each instruction does

`Instruction.execute` applies an instruction to a machine whose program counter already
points past it: a jump replaces the counter, and a skip adds to it.

An operation on two registers is a function of their bytes and of the dialect,
`AluOp.eval`, which also says what becomes of the flag. The flag is written last, so it
wins over the result where the target is the flag register.
-/

set_option autoImplicit false

namespace Chip8

/-- Whether the condition holds on a machine. -/
def Condition.holds (m : Machine) : Condition → Bool
  | .byteEq x value => m.registers.get x == value
  | .byteNe x value => m.registers.get x != value
  | .registerEq x y => m.registers.get x == m.registers.get y
  | .registerNe x y => m.registers.get x != m.registers.get y
  | .keyDown x => m.keypad.isDown (m.registers.get x)
  | .keyUp x => !m.keypad.isDown (m.registers.get x)

/-- The result of an operation on bytes `a` and `b`, and the flag if it sets one. -/
def AluOp.eval (d : Dialect) (a b : UInt8) : AluOp → UInt8 × Option Bool
  | .copy => (b, none)
  | .or => (a ||| b, if d.logicClearsFlag then some false else none)
  | .and => (a &&& b, if d.logicClearsFlag then some false else none)
  | .xor => (a ^^^ b, if d.logicClearsFlag then some false else none)
  | .add => (a + b, some (decide (0x100 ≤ a.toNat + b.toNat)))
  | .sub => (a - b, some (decide (b ≤ a)))
  | .subFrom => (b - a, some (decide (a ≤ b)))
  | .shiftRight =>
    let s := if d.shiftReadsSecond then b else a
    (s >>> 1, some (s &&& 1 == 1))
  | .shiftLeft =>
    let s := if d.shiftReadsSecond then b else a
    (s <<< 1, some (decide (0x80 ≤ s)))

namespace Machine

/-- Returns to the latest open call. Without one, the fault names the instruction before
the program counter. -/
def returnFromCall (m : Machine) : Outcome :=
  match m.calls with
  | [] => ⟨some (.stackUnderflow m.rewind.pc), m⟩
  | address :: calls => .done { m with pc := address, calls }

/-- Combines two registers into the first. -/
def combine (m : Machine) (op : AluOp) (x y : UInt8) : Machine :=
  let (value, flag) := op.eval m.dialect (m.registers.get x) (m.registers.get y)
  let m := m.setRegister x value
  match flag with
  | some raised => m.setFlag raised
  | none => m

/-- Draws the sprite at the index and reports a collision in the flag. The position is
read before the flag is written. -/
def drawSprite (m : Machine) (x y height : UInt8) : Outcome :=
  .ofPart m (m.memory.read m.index.toNat (height.toNat % 0x10)) fun sprite =>
    let column := (m.registers.get x).toNat
    let row := (m.registers.get y).toNat
    { m.setFlag (m.screen.collides sprite column row) with
      screen := m.screen.draw sprite column row }

/-- The hundreds, tens and ones of a byte. -/
def decimalDigits (value : UInt8) : List UInt8 := [value / 100, value / 10 % 10, value % 10]

/-- Loads registers 0 to `x` from memory at the index. -/
def loadRegisters (m : Machine) (x : UInt8) : Outcome :=
  .ofPart m (m.memory.read m.index.toNat (Registers.slot x + 1)) fun bytes =>
    { m with registers := m.registers.fill bytes }

end Machine

/-- Applies an instruction. -/
def Instruction.execute (instr : Instruction) (m : Machine) : Outcome :=
  match instr with
  | .system _ => .done m
  | .clearScreen => .done { m with screen := .blank }
  | .ret => m.returnFromCall
  | .jump address => .done { m with pc := address }
  | .call address => .done { m with pc := address, calls := m.pc :: m.calls }
  | .skip condition => .done (if condition.holds m then m.advance else m)
  | .load x value => .done (m.setRegister x value)
  | .addByte x value => .done (m.setRegister x (m.registers.get x + value))
  | .alu op x y => .done (m.combine op x y)
  | .setIndex address => .done { m with index := address }
  | .jumpOffset address => .done { m with pc := address + (m.registers.get 0).toUInt16 }
  | .random x mask =>
    let (byte, m) := m.drawRandom
    .done (m.setRegister x (byte &&& mask))
  | .draw x y height => m.drawSprite x y height
  | .readDelay x => .done (m.setRegister x m.delay)
  | .awaitKey x =>
    match m.keypad.firstPressed? with
    | some k => .done (m.setRegister x k)
    | none => .done m.rewind
  | .setDelay x => .done { m with delay := m.registers.get x }
  | .setSound x => .done { m with sound := m.registers.get x }
  | .addIndex x => .done { m with index := m.index + (m.registers.get x).toUInt16 }
  | .glyph _ => .done m
  | .storeDecimal x => m.write m.index.toNat (Machine.decimalDigits (m.registers.get x))
  | .storeRegisters x => m.write m.index.toNat (m.registers.upTo x)
  | .loadRegisters x => m.loadRegisters x

end Chip8
