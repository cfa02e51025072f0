import Chip8.Console

/-!
# `Chip8.Console.Run`: many steps in a row

`Console.run n` takes up to `n` steps and stops at the first fault. `Console.runFrame n`
is the work of the host between two ticks: such a run, and one tick of the timers if
every step succeeded.
-/

set_option autoImplicit false

namespace Chip8

/-- The instructions that a run executed, the fault that stopped it if one did, the console
it left, and what it logged. -/
structure Run where
  executed : Array Instruction
  fault : Option Fault
  console : Console
  log : Array Log.Record

namespace Run

/-- The run of no step. -/
def start (c : Console) : Run := ⟨#[], none, c, #[]⟩

/-- Goes on with a run by up to `n` steps. -/
def extend (r : Run) : Nat → Run
  | 0 => r
  | n + 1 =>
    let reply := r.console.step
    let log := r.log ++ reply.log.toArray
    match reply.result with
    | .ok instr => extend ⟨r.executed.push instr, none, reply.console, log⟩ n
    | .error fault => ⟨r.executed, some fault, reply.console, log⟩

/-- Whether some instruction of the run may have changed the screen. -/
def touchedScreen (r : Run) : Bool := r.executed.any Instruction.touchesScreen

/-- What goes before a run stays in front, and what follows depends on the console alone. -/
theorem extend_eq (r : Run) (n : Nat) (h : r.fault = none) :
    r.extend n = ⟨r.executed ++ ((start r.console).extend n).executed,
      ((start r.console).extend n).fault, ((start r.console).extend n).console,
      r.log ++ ((start r.console).extend n).log⟩ := by
  induction n generalizing r with
  | zero =>
    cases r
    simp_all [extend, start]
  | succ n ih =>
    rw [extend, extend]
    simp only [start]
    cases r.console.step.result with
    | ok instr =>
      simp only
      rw [ih ⟨r.executed.push instr, _, _, _⟩ rfl, ih ⟨#[].push instr, _, _, _⟩ rfl]
      simp
    | error fault => simp

end Run

namespace Console

/-- Takes up to `n` steps, and stops at the first fault. -/
def run (c : Console) (n : Nat) : Run := (Run.start c).extend n

/-! A run is a step and then the run from there, or a step that fails. -/

/-- A run of no steps is the start. -/
theorem run_zero (c : Console) : c.run 0 = .start c := rfl

/-- A run whose first step succeeds is that step followed by the run of the others. -/
theorem run_succ_of_ok {c : Console} {instr : Instruction} (n : Nat)
    (h : c.step.result = .ok instr) :
    c.run (n + 1) = ⟨#[instr] ++ (c.step.console.run n).executed, (c.step.console.run n).fault,
      (c.step.console.run n).console, c.step.log.toArray ++ (c.step.console.run n).log⟩ := by
  simp only [run, Run.extend, Run.start, h]
  rw [Run.extend_eq _ _ rfl]
  simp [Run.start]

/-- A run whose first step fails is that step. -/
theorem run_succ_of_error {c : Console} {fault : Fault} (n : Nat)
    (h : c.step.result = .error fault) :
    c.run (n + 1) = ⟨#[], some fault, c.step.console, c.step.log.toArray⟩ := by
  simp [run, Run.extend, Run.start, h]

/-- Runs `n` steps and then ticks the timers. The answer is whether the screen may have
changed. After a fault the timers are left alone. -/
def runFrame (c : Console) (n : Nat) : Reply Bool :=
  let r := c.run n
  match r.fault with
  | none => ⟨.ok r.touchedScreen, r.console.tick, r.log.toList⟩
  | some fault => ⟨.error fault, r.console, r.log.toList⟩

end Console

end Chip8
