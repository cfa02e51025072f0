import Chip8.Instruction
import Chip8.Numeral

/-!
# `Chip8.Instruction.Assembly`: instructions as assembly text

A line of assembly is a mnemonic and its operands, which commas separate. Each
operand kind has a written form of its own: a register is `V` and its digits, a
byte has at least two hexadecimal digits, an address at least three, and a sprite
height is decimal. Operands are written in full, also where an opcode could not
carry them.
-/

set_option autoImplicit false

namespace Chip8

/-- One operand of a line of assembly. -/
inductive Operand where
  | register (x : UInt8)
  | byte (value : UInt8)
  | address (value : UInt16)
  /-- A sprite height. -/
  | count (n : UInt8)
  /-- The index register. -/
  | index
  /-- The memory that the index points at. -/
  | atIndex
  | delayTimer
  | soundTimer
  | key
  /-- The place of a digit's glyph. -/
  | glyph
  /-- The place of decimal digits. -/
  | decimalDigits
  deriving DecidableEq

/-- The written form of an operand. -/
def Operand.text : Operand → String
  | .register x => "V" ++ Numeral.hex 1 x.toNat
  | .byte value => Numeral.hexLiteral 2 value.toNat
  | .address value => Numeral.hexLiteral 3 value.toNat
  | .count n => Numeral.decimal n.toNat
  | .index => "I"
  | .atIndex => "[I]"
  | .delayTimer => "DT"
  | .soundTimer => "ST"
  | .key => "K"
  | .glyph => "F"
  | .decimalDigits => "B"

/-- The mnemonic of a skip. -/
def Condition.mnemonic : Condition → String
  | .byteEq .. | .registerEq .. => "SE"
  | .byteNe .. | .registerNe .. => "SNE"
  | .keyDown _ => "SKP"
  | .keyUp _ => "SKNP"

/-- The operands of a skip. -/
def Condition.operands : Condition → List Operand
  | .byteEq x value | .byteNe x value => [.register x, .byte value]
  | .registerEq x y | .registerNe x y => [.register x, .register y]
  | .keyDown x | .keyUp x => [.register x]

/-- The mnemonic of a register operation. -/
def AluOp.mnemonic : AluOp → String
  | .copy => "LD"
  | .or => "OR"
  | .and => "AND"
  | .xor => "XOR"
  | .add => "ADD"
  | .sub => "SUB"
  | .shiftRight => "SHR"
  | .subFrom => "SUBN"
  | .shiftLeft => "SHL"

namespace Instruction

/-- The first word of the line. -/
def mnemonic : Instruction → String
  | .system _ => "SYS"
  | .clearScreen => "CLS"
  | .ret => "RET"
  | .jump _ | .jumpOffset _ => "JP"
  | .call _ => "CALL"
  | .skip condition => condition.mnemonic
  | .alu op _ _ => op.mnemonic
  | .addByte .. | .addIndex _ => "ADD"
  | .random .. => "RND"
  | .draw .. => "DRW"
  | .load .. | .setIndex _ | .readDelay _ | .awaitKey _ | .setDelay _ | .setSound _ | .glyph _
  | .storeDecimal _ | .storeRegisters _ | .loadRegisters _ => "LD"

/-- What follows the mnemonic. -/
def operands : Instruction → List Operand
  | .system address => [.address address]
  | .clearScreen => []
  | .ret => []
  | .jump address => [.address address]
  | .call address => [.address address]
  | .skip condition => condition.operands
  | .load x value => [.register x, .byte value]
  | .addByte x value => [.register x, .byte value]
  | .alu _ x y => [.register x, .register y]
  | .setIndex address => [.index, .address address]
  | .jumpOffset address => [.register 0, .address address]
  | .random x mask => [.register x, .byte mask]
  | .draw x y height => [.register x, .register y, .count height]
  | .readDelay x => [.register x, .delayTimer]
  | .awaitKey x => [.register x, .key]
  | .setDelay x => [.delayTimer, .register x]
  | .setSound x => [.soundTimer, .register x]
  | .addIndex x => [.index, .register x]
  | .glyph x => [.glyph, .register x]
  | .storeDecimal x => [.decimalDigits, .register x]
  | .storeRegisters x => [.atIndex, .register x]
  | .loadRegisters x => [.register x, .atIndex]

/-- The line of assembly: the mnemonic, and after a blank the operands. -/
def text (instr : Instruction) : String :=
  match instr.operands with
  | [] => instr.mnemonic
  | operands => instr.mnemonic ++ " " ++ ", ".intercalate (operands.map Operand.text)

end Instruction

end Chip8
