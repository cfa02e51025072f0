import Chip8.Instruction.Encoding
import Chip8.Log
import Chip8.Machine.Execute

/-!
# `Chip8.Console`: a machine with its program, as a host drives it

A console keeps a machine, the program it was loaded with, the configuration it was
created from, and whether the screen may have changed since the host last took it.

Every operation answers with a `Reply`: how it ended, the console after it, and the
records it adds to the log. A step that fails leaves the program counter on the
instruction that failed. A load that fails changes nothing.

To create a console and to load a program is to switch on a machine, and without a seed
this takes entropy from the system. So these operations are given what the system hands out
(`entropy`), which may be another key each time. With a seed they do not look at it.
-/

set_option autoImplicit false

namespace Chip8

/-- A machine in the hands of a host. -/
@[ext]
structure Console where
  machine : Machine
  /-- The screen may have changed since the host last took it. -/
  redraw : Bool
  config : Config
  /-- What the last load put into memory, and a reset puts there again. -/
  program : List UInt8
  deriving DecidableEq

/-- How an operation on a console ended, the console after it, and what it logged. -/
structure Reply (α : Type) where
  result : Except Fault α
  console : Console
  log : List Log.Record

namespace Reply

variable {α β : Type}

/-- A reply with its result put into another form. -/
def map (f : α → β) (r : Reply α) : Reply β := { r with result := r.result.map f }

/-- A reply with records put before its own. -/
def after (records : List Log.Record) (r : Reply α) : Reply α :=
  { r with log := records ++ r.log }

end Reply

/-- A source of programs: the pieces it yields, and why it then breaks off, if it does. -/
structure Rom where
  chunks : List (List UInt8)
  failure : Option String := none
  deriving DecidableEq

/-- The whole program that a source yields. -/
def Rom.contents (rom : Rom) : Except Fault (List UInt8) :=
  match rom.failure with
  | some reason => .error (.unreadable reason)
  | none => .ok rom.chunks.flatten

namespace Console

/-- How often a second the host ticks the timers. -/
def ticksPerSecond : Nat := 60

/-- How many instructions a host runs between two ticks. -/
def stepsPerTick : Nat := 10

/-! ### Creation and programs -/

/-- A console without a program. -/
def ofConfig (config : Config) (entropy : Random.Key) : Console where
  machine := .fresh config entropy
  redraw := false
  config
  program := []

/-- Creates a console. -/
def create (config : Config) (entropy : Random.Key := .zero) : Reply Unit :=
  ⟨.ok (), ofConfig config entropy, [.created config]⟩

/-- Starts over with a fresh machine and a program in its memory. -/
def load (c : Console) (program : List UInt8) (entropy : Random.Key) : Reply Unit :=
  let outcome := (Machine.fresh c.config entropy).load program
  match outcome.fault with
  | none =>
    ⟨.ok (), { c with machine := outcome.machine, redraw := true, program },
      [.loaded program.length]⟩
  | some fault => ⟨.error fault, c, []⟩

/-- Loads the program that a source yields. -/
def loadRom (c : Console) (rom : Rom) (entropy : Random.Key) : Reply Unit :=
  match rom.contents with
  | .ok program => c.load program entropy
  | .error fault => ⟨.error fault, c, []⟩

/-- Takes the program out and loads it again. A program that was loaded once fits, so this
does not lose it. -/
def reset (c : Console) (entropy : Random.Key) : Reply Unit :=
  (load { c with program := [] } c.program entropy).after [.resetting]

/-- Creates a console with a program. -/
def createWith (config : Config) (program : List UInt8) (entropy : Random.Key := .zero) :
    Reply Unit :=
  ((ofConfig config entropy).load program entropy).after [.created config]

/-! ### Running -/

/-- The opcode that the program counter points at. -/
def fetch (c : Console) : Except Fault Opcode := c.machine.fetch

/-- Executes an instruction that stands at `address` as `opcode`. -/
def execute (c : Console) (opcode : Opcode) (instr : Instruction) (address : UInt16) :
    Reply Instruction :=
  let outcome := instr.execute c.machine.advance
  match outcome.fault with
  | none =>
    let m := outcome.machine
    ⟨.ok instr, { c with machine := m, redraw := c.redraw || instr.touchesScreen },
      [.executed opcode instr m.registers m.index m.pc]⟩
  | some fault =>
    ⟨.error fault, { c with machine := { outcome.machine with pc := address } },
      [.failed opcode instr address fault]⟩

/-- Runs the instruction that the program counter points at, and answers with it. -/
def step (c : Console) : Reply Instruction :=
  let address := c.machine.pc
  match c.fetch with
  | .error fault => ⟨.error fault, c, [.fetchFailed address fault]⟩
  | .ok opcode =>
    match Instruction.decode? opcode with
    | none => ⟨.error (.unknownOpcode opcode address), c, [.unknownOpcode opcode address]⟩
    | some instr => c.execute opcode instr address

/-! ### Timers, keys and the screen -/

/-- Counts both timers down by one. -/
def tick (c : Console) : Console := { c with machine := c.machine.tick }

/-- The reply of a console whose machine was changed by an operation that logs nothing. -/
def ofOutcome (c : Console) (outcome : Outcome) : Reply Unit :=
  let result := match outcome.fault with
    | none => .ok ()
    | some fault => .error fault
  ⟨result, { c with machine := outcome.machine }, []⟩

/-- Presses a key. -/
def press (c : Console) (k : UInt8) : Reply Unit := c.ofOutcome (c.machine.press k)

/-- Releases a key. -/
def release (c : Console) (k : UInt8) : Reply Unit := c.ofOutcome (c.machine.release k)

/-- The screen, if it may have changed since it was last taken. -/
def takeScreen (c : Console) : Option Screen × Console :=
  if c.redraw then (some c.machine.screen, { c with redraw := false }) else (none, c)

/-- Whether the host should play a tone. -/
def soundActive (c : Console) : Bool := c.machine.sound != 0

end Console

end Chip8
