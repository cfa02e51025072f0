import Chip8.Console.Run

/-!
# `Chip8.Console.Call`: the operations of a host as data

A `Call` names an operation with its arguments, and `Console.perform` carries it out.
What a host does with a console is then a list of calls, which statements about whole
histories range over. The calls that switch on a machine come with the entropy that the system
hands out for them. It is not the host that chooses it, and statements that must not depend on
it say so.
-/

set_option autoImplicit false

namespace Chip8

/-- An operation of a host. -/
inductive Call where
  | load (program : List UInt8) (entropy : Random.Key := .zero)
  | loadRom (rom : Rom) (entropy : Random.Key := .zero)
  | reset (entropy : Random.Key := .zero)
  | fetch
  | step
  | runFrame (steps : Nat)
  | tick
  | press (key : UInt8)
  | release (key : UInt8)
  | takeScreen
  deriving DecidableEq

/-- What a call that succeeded answers. -/
inductive Answer where
  | done
  | opcode (opcode : Opcode)
  | executed (instruction : Instruction)
  /-- Whether the screen may have changed. -/
  | redrawn (touched : Bool)
  | screen (screen : Option Screen)
  deriving DecidableEq

namespace Console

/-- Carries out a call. -/
def perform (c : Console) : Call → Reply Answer
  | .load program entropy => (c.load program entropy).map fun () => .done
  | .loadRom rom entropy => (c.loadRom rom entropy).map fun () => .done
  | .reset entropy => (c.reset entropy).map fun () => .done
  | .fetch => ⟨c.fetch.map .opcode, c, []⟩
  | .step => c.step.map .executed
  | .runFrame steps => (c.runFrame steps).map .redrawn
  | .tick => ⟨.ok .done, c.tick, []⟩
  | .press key => (c.press key).map fun () => .done
  | .release key => (c.release key).map fun () => .done
  | .takeScreen =>
    let (screen, c) := c.takeScreen
    ⟨.ok (.screen screen), c, []⟩

/-- The console after a list of calls. -/
def after (c : Console) (calls : List Call) : Console :=
  calls.foldl (fun c call => (c.perform call).console) c

end Console

end Chip8
