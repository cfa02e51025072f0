import Chip8.Config
import Chip8.Fault
import Chip8.Instruction.Assembly
import Chip8.Registers

/-!
# `Chip8.Log`: what a console tells about its work

A `Record` is one event worth telling. Each has a level and a message. An executed
instruction is told at the level for tracing, with the registers, the index and the
program counter that it left behind; everything else at the level for debugging.
-/

set_option autoImplicit false

namespace Chip8.Log

open Numeral (decimal hex hexLiteral)

/-- How much detail a record is. -/
inductive Level where
  | debug
  | trace
  deriving DecidableEq

/-- One event. -/
inductive Record where
  /-- A console was created. -/
  | created (config : Config)
  /-- A program of `size` bytes was loaded. -/
  | loaded (size : Nat)
  /-- A reset begins. -/
  | resetting
  /-- There is no opcode at `address`. -/
  | fetchFailed (address : UInt16) (fault : Fault)
  /-- The opcode at `address` stands for no instruction. -/
  | unknownOpcode (opcode : Opcode) (address : UInt16)
  /-- The instruction at `address` failed. -/
  | failed (opcode : Opcode) (instruction : Instruction) (address : UInt16) (fault : Fault)
  /-- An instruction was executed, and left these registers, index and program counter. -/
  | executed (opcode : Opcode) (instruction : Instruction) (registers : Registers)
      (index pc : UInt16)
  deriving DecidableEq

/-- The written form of a level. -/
def Level.text : Level → String
  | .debug => "DEBUG"
  | .trace => "TRACE"

/-- Whether a log kept at level `limit` shows records of a level. -/
def Level.shows (limit level : Level) : Bool := limit == .trace || level == .debug

/-- The level of a record. -/
def Record.level : Record → Level
  | .executed .. => .trace
  | _ => .debug

/-- The registers between brackets, two digits each. -/
def registersText (r : Registers) : String :=
  "[" ++ ", ".intercalate (r.toList.map fun byte => hex 2 byte.toNat) ++ "]"

/-- The message of a record. -/
def Record.message : Record → String
  | .created config => "creating chip-8 with " ++ config.text
  | .loaded size => "loaded " ++ decimal size ++ " byte program"
  | .resetting => "resetting"
  | .fetchFailed address fault =>
    "unable to fetch at " ++ hexLiteral 3 address.toNat ++ ": " ++ fault.message
  | .unknownOpcode opcode address =>
    "unknown opcode " ++ hex 4 opcode.toNat ++ " at " ++ hexLiteral 3 address.toNat
  | .failed opcode instr address fault =>
    hex 4 opcode.toNat ++ " (" ++ instr.text ++ ") at " ++ hexLiteral 3 address.toNat
      ++ " failed: " ++ fault.message
  | .executed opcode instr registers index pc =>
    hex 4 opcode.toNat ++ " " ++ instr.text ++ " v" ++ registersText registers
      ++ " i" ++ hex 4 index.toNat ++ " pc" ++ hex 4 pc.toNat

end Chip8.Log
