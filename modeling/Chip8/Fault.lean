import Chip8.Numeral
import Chip8.Opcode

/-!
# `Chip8.Fault`: why the machine refuses

Each constructor is one cause. `Fault.message` is its wording. No fault damages the
machine: the host decides whether to stop, to go on or to load again.
-/

set_option autoImplicit false

namespace Chip8

open Numeral (decimal hexLiteral)

/-- The causes for which an operation is refused. -/
inductive Fault where
  /-- The word at `address` stands for no instruction. -/
  | unknownOpcode (opcode : Opcode) (address : UInt16)
  /-- The instruction at `address` returns, and no call is open. -/
  | stackUnderflow (address : UInt16)
  /-- An access reaches past the end of memory, first at `address`. -/
  | outOfBounds (address : Nat)
  /-- A write starts in the memory that belongs to the interpreter. -/
  | reservedWrite (address : Nat)
  /-- A program of `size` bytes does not fit into the `limit` bytes for programs. -/
  | programTooLarge (size limit : Nat)
  /-- The keypad has no such key. -/
  | invalidKey (key : UInt8)
  /-- The source of a program could not be read. -/
  | unreadable (reason : String)
  deriving DecidableEq

/-- The wording of a fault. -/
def Fault.message : Fault → String
  | .unknownOpcode opcode address =>
    "unknown opcode " ++ hexLiteral 4 opcode.toNat ++ " at " ++ hexLiteral 3 address.toNat
  | .stackUnderflow address =>
    "return with an empty call stack at " ++ hexLiteral 3 address.toNat
  | .outOfBounds address => "memory access out of bounds at " ++ hexLiteral 4 address
  | .reservedWrite address =>
    "write into reserved interpreter memory at " ++ hexLiteral 3 address
  | .programTooLarge size limit =>
    "program is " ++ decimal size ++ " bytes but at most " ++ decimal limit
      ++ " bytes fit in memory"
  | .invalidKey key => "key " ++ hexLiteral 1 key.toNat ++ " is not on the keypad"
  | .unreadable reason => "unable to read program: " ++ reason

end Chip8
