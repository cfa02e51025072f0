import Chip8.Instruction
import Chip8.Opcode

/-!
# `Chip8.Instruction.Encoding`: opcodes and instructions

`Instruction.decode?` reads an opcode, and `Instruction.opcode` writes one. Writing
cuts each operand down to its field.
-/

set_option autoImplicit false

namespace Chip8

/-- The last nibble that selects a register operation. -/
def AluOp.code : AluOp → UInt8
  | .copy => 0x0
  | .or => 0x1
  | .and => 0x2
  | .xor => 0x3
  | .add => 0x4
  | .sub => 0x5
  | .shiftRight => 0x6
  | .subFrom => 0x7
  | .shiftLeft => 0xE

/-- The register operation that a nibble selects. -/
def AluOp.ofCode? (code : UInt8) : Option AluOp :=
  match code.toNat with
  | 0x0 => some .copy
  | 0x1 => some .or
  | 0x2 => some .and
  | 0x3 => some .xor
  | 0x4 => some .add
  | 0x5 => some .sub
  | 0x6 => some .shiftRight
  | 0x7 => some .subFrom
  | 0xE => some .shiftLeft
  | _ => none

namespace Instruction

/-- The key instructions, selected by the low byte. -/
def ofKeyCode? (x code : UInt8) : Option Instruction :=
  match code.toNat with
  | 0x9E => some (.skip (.keyDown x))
  | 0xA1 => some (.skip (.keyUp x))
  | _ => none

/-- The instructions on timers, index and memory, selected by the low byte. -/
def ofDeviceCode? (x code : UInt8) : Option Instruction :=
  match code.toNat with
  | 0x07 => some (.readDelay x)
  | 0x0A => some (.awaitKey x)
  | 0x15 => some (.setDelay x)
  | 0x18 => some (.setSound x)
  | 0x1E => some (.addIndex x)
  | 0x29 => some (.glyph x)
  | 0x33 => some (.storeDecimal x)
  | 0x55 => some (.storeRegisters x)
  | 0x65 => some (.loadRegisters x)
  | _ => none

/-- The instructions without a family digit, selected by the whole address field. -/
def ofSystemCode (address : UInt16) : Instruction :=
  if address = 0x0E0 then .clearScreen
  else if address = 0x0EE then .ret
  else .system address

/-- The instruction that an opcode stands for, if it stands for one. -/
def decode? (w : Opcode) : Option Instruction :=
  match w.family with
  | 0x0 => some (ofSystemCode w.address)
  | 0x1 => some (.jump w.address)
  | 0x2 => some (.call w.address)
  | 0x3 => some (.skip (.byteEq w.x w.byte))
  | 0x4 => some (.skip (.byteNe w.x w.byte))
  | 0x5 => if w.nibble = 0 then some (.skip (.registerEq w.x w.y)) else none
  | 0x6 => some (.load w.x w.byte)
  | 0x7 => some (.addByte w.x w.byte)
  | 0x8 => (AluOp.ofCode? w.nibble).map fun op => .alu op w.x w.y
  | 0x9 => if w.nibble = 0 then some (.skip (.registerNe w.x w.y)) else none
  | 0xA => some (.setIndex w.address)
  | 0xB => some (.jumpOffset w.address)
  | 0xC => some (.random w.x w.byte)
  | 0xD => some (.draw w.x w.y w.nibble)
  | 0xE => ofKeyCode? w.x w.byte
  | 0xF => ofDeviceCode? w.x w.byte
  | _ => none

/-- The opcode of an instruction. Operands wider than their field lose their high bits. -/
def opcode : Instruction → Opcode
  | .system address => .ofAddress 0x0 address
  | .clearScreen => .ofAddress 0x0 0x0E0
  | .ret => .ofAddress 0x0 0x0EE
  | .jump address => .ofAddress 0x1 address
  | .call address => .ofAddress 0x2 address
  | .skip (.byteEq x value) => .ofByte 0x3 x value
  | .skip (.byteNe x value) => .ofByte 0x4 x value
  | .skip (.registerEq x y) => .ofNibbles 0x5 x y 0x0
  | .load x value => .ofByte 0x6 x value
  | .addByte x value => .ofByte 0x7 x value
  | .alu op x y => .ofNibbles 0x8 x y op.code
  | .skip (.registerNe x y) => .ofNibbles 0x9 x y 0x0
  | .setIndex address => .ofAddress 0xA address
  | .jumpOffset address => .ofAddress 0xB address
  | .random x mask => .ofByte 0xC x mask
  | .draw x y height => .ofNibbles 0xD x y height
  | .skip (.keyDown x) => .ofByte 0xE x 0x9E
  | .skip (.keyUp x) => .ofByte 0xE x 0xA1
  | .readDelay x => .ofByte 0xF x 0x07
  | .awaitKey x => .ofByte 0xF x 0x0A
  | .setDelay x => .ofByte 0xF x 0x15
  | .setSound x => .ofByte 0xF x 0x18
  | .addIndex x => .ofByte 0xF x 0x1E
  | .glyph x => .ofByte 0xF x 0x29
  | .storeDecimal x => .ofByte 0xF x 0x33
  | .storeRegisters x => .ofByte 0xF x 0x55
  | .loadRegisters x => .ofByte 0xF x 0x65

end Instruction

end Chip8
