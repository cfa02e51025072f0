/-!
# `Chip8.Instruction`: what an opcode asks for

The instructions of the machine. Register operands are bytes of which the machine
uses the low nibble, and address operands are whole words, so a value may hold an
operand that no opcode can carry.
-/

set_option autoImplicit false

namespace Chip8

/-- The test of a skip instruction. -/
inductive Condition where
  /-- Register `x` holds `value`. -/
  | byteEq (x value : UInt8)
  /-- Register `x` does not hold `value`. -/
  | byteNe (x value : UInt8)
  /-- Registers `x` and `y` hold the same byte. -/
  | registerEq (x y : UInt8)
  /-- Registers `x` and `y` hold different bytes. -/
  | registerNe (x y : UInt8)
  /-- The key whose number is in register `x` is down. -/
  | keyDown (x : UInt8)
  /-- The key whose number is in register `x` is not down. -/
  | keyUp (x : UInt8)
  deriving DecidableEq

/-- An operation on two registers whose result goes to the first. -/
inductive AluOp where
  | copy
  | or
  | and
  | xor
  | add
  | sub
  | shiftRight
  /-- The second register less the first. -/
  | subFrom
  | shiftLeft
  deriving DecidableEq

/-- One instruction with its operands. -/
inductive Instruction where
  /-- Call a routine of the host processor. There is none, so nothing happens. -/
  | system (address : UInt16)
  | clearScreen
  /-- Return from a subroutine. -/
  | ret
  | jump (address : UInt16)
  | call (address : UInt16)
  /-- Skip the next instruction if the condition holds. -/
  | skip (condition : Condition)
  | load (x value : UInt8)
  /-- Add to a register without touching the flag. -/
  | addByte (x value : UInt8)
  | alu (op : AluOp) (x y : UInt8)
  | setIndex (address : UInt16)
  /-- Jump to the address plus register 0. -/
  | jumpOffset (address : UInt16)
  /-- A random byte, of which the bits of `mask` are kept. -/
  | random (x mask : UInt8)
  /-- Draw `height` bytes of memory at the position in registers `x` and `y`. -/
  | draw (x y height : UInt8)
  | readDelay (x : UInt8)
  /-- Wait for a key and keep its number. -/
  | awaitKey (x : UInt8)
  | setDelay (x : UInt8)
  | setSound (x : UInt8)
  | addIndex (x : UInt8)
  /-- Point the index at the glyph of a digit. No font is installed, so nothing happens. -/
  | glyph (x : UInt8)
  /-- Store the three decimal digits of a register. -/
  | storeDecimal (x : UInt8)
  /-- Store registers 0 to `x`. -/
  | storeRegisters (x : UInt8)
  /-- Load registers 0 to `x`. -/
  | loadRegisters (x : UInt8)
  deriving DecidableEq

/-- Whether the instruction may change what the screen shows. -/
def Instruction.touchesScreen : Instruction → Bool
  | .clearScreen | .draw .. => true
  | _ => false

end Chip8
