import Chip8.Config
import Chip8.Keypad
import Chip8.Memory
import Chip8.Random
import Chip8.Registers
import Chip8.Screen

/-!
# `Chip8.Machine`: the state that instructions act on

The registers, the index and the program counter, the calls that are open, two timers,
memory, the keypad, the screen and the random bytes still to come. The index and the
program counter wrap around 16 bits and may point past the end of memory, where only an
access is refused.

An `Outcome` is what an operation leaves behind: the fault if it failed, and the machine
after it. The machine is given also after a failure, so that what a failure leaves alone
can be stated.
-/

set_option autoImplicit false

namespace Chip8

/-- The state of the machine. -/
@[ext]
structure Machine where
  registers : Registers
  /-- The address that memory instructions work on. -/
  index : UInt16
  /-- The address of the instruction to come. -/
  pc : UInt16
  /-- The addresses to return to, the latest call first. -/
  calls : List UInt16
  delay : UInt8
  sound : UInt8
  memory : Memory
  keypad : Keypad
  screen : Screen
  random : Random
  dialect : Dialect
  deriving DecidableEq

/-- What an operation on a machine leaves behind. -/
structure Outcome where
  /-- Why the operation failed, if it did. -/
  fault : Option Fault
  machine : Machine
  deriving DecidableEq

namespace Outcome

/-- The operation succeeded and left `m`. -/
def done (m : Machine) : Outcome := ⟨none, m⟩

/-- The operation on `m` that puts a part in its place, if the part could be had, and
otherwise leaves the machine alone. -/
def ofPart {α : Type} (m : Machine) (part : Except Fault α) (put : α → Machine) : Outcome :=
  match part with
  | .ok a => ⟨none, put a⟩
  | .error fault => ⟨some fault, m⟩

end Outcome

namespace Machine

/-- A machine that was just switched on: all zero, and about to run the program. Its random
bytes are those of the seed, or, without a seed, those of the entropy that the system handed
out. Where there is a seed, the entropy need not be given. -/
def fresh (config : Config) (entropy : Random.Key := .zero) : Machine where
  registers := .zero
  index := 0
  pc := UInt16.ofNat Memory.programStart
  calls := []
  delay := 0
  sound := 0
  memory := .zero
  keypad := .released
  screen := .blank
  random := .start config.seed entropy
  dialect := config.dialect

/-! ### The program counter -/

/-- The opcode that the program counter points at. -/
def fetch (m : Machine) : Except Fault Opcode := m.memory.readOpcode m.pc.toNat

/-- Moves on by one instruction. -/
def advance (m : Machine) : Machine := { m with pc := m.pc + UInt16.ofNat Opcode.size }

/-- Moves back by one instruction. -/
def rewind (m : Machine) : Machine := { m with pc := m.pc - UInt16.ofNat Opcode.size }

/-! ### Registers, timers and random bytes -/

/-- Puts a byte into register `x`. -/
def setRegister (m : Machine) (x value : UInt8) : Machine :=
  { m with registers := m.registers.set x value }

/-- Puts one or zero into the flag register. -/
def setFlag (m : Machine) (raised : Bool) : Machine :=
  { m with registers := m.registers.setFlag raised }

/-- Counts both timers down by one. A timer at zero stays there. -/
def tick (m : Machine) : Machine :=
  { m with
    delay := if m.delay = 0 then 0 else m.delay - 1
    sound := if m.sound = 0 then 0 else m.sound - 1 }

/-- Draws the next random byte. -/
def drawRandom (m : Machine) : UInt8 × Machine :=
  let (byte, random) := m.random.next
  (byte, { m with random })

/-! ### Memory and keys -/

/-- Writes bytes to memory. -/
def write (m : Machine) (address : Nat) (bytes : List UInt8) : Outcome :=
  .ofPart m (m.memory.write address bytes) fun memory => { m with memory }

/-- Copies a program to its place in memory. -/
def load (m : Machine) (program : List UInt8) : Outcome :=
  .ofPart m (m.memory.load program) fun memory => { m with memory }

/-- Presses a key. -/
def press (m : Machine) (k : UInt8) : Outcome :=
  .ofPart m (m.keypad.press k) fun keypad => { m with keypad }

/-- Releases a key. -/
def release (m : Machine) (k : UInt8) : Outcome :=
  .ofPart m (m.keypad.release k) fun keypad => { m with keypad }

end Machine

end Chip8
