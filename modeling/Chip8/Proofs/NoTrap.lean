import Chip8.Console.Call
import Chip8.Proofs.GuardedMachine

/-!
# `Chip8.Proofs.NoTrap`: a host never meets a trap

The operations of a console, written once more on the machine with guards. What a console adds to
the machine is its own loops: a run takes one step after the other, and a host makes one call after
the other. The step with guards is the step that runs (`step_eq`), so by induction a run with guards
is the run (`extend_eq`), and the replies to any calls are the same (`replies_eq`).

So whatever the state of the machine and whatever the program in its memory are, each call ends
with an answer or with a fault, and `nothing_traps` says so for all operations at once.
-/

set_option autoImplicit false

namespace Chip8

/-- The replies to a list of calls, each made on the console that the one before it left. -/
def Console.replies (c : Console) : List Call → List (Reply Answer)
  | [] => []
  | call :: rest => c.perform call :: (c.perform call).console.replies rest

namespace Guarded

/-! ### Programs -/

/-- Starts over with a fresh machine and a program in its memory. -/
def load (c : Console) (program : List UInt8) (entropy : Random.Key) : Guarded (Reply Unit) := do
  let outcome ← loadProgram (.fresh c.config entropy) program
  match outcome.fault with
  | none =>
    return ⟨.ok (), { c with machine := outcome.machine, redraw := true, program },
      [.loaded program.length]⟩
  | some fault => return ⟨.error fault, c, []⟩

/-- Loads the program that a source yields. -/
def loadRom (c : Console) (rom : Rom) (entropy : Random.Key) : Guarded (Reply Unit) :=
  match rom.contents with
  | .ok program => load c program entropy
  | .error fault => return ⟨.error fault, c, []⟩

/-- Takes the program out and loads it again. -/
def reset (c : Console) (entropy : Random.Key) : Guarded (Reply Unit) := do
  return (← load { c with program := [] } c.program entropy).after [.resetting]

/-- No load traps. -/
theorem load_eq (c : Console) (program : List UInt8) (entropy : Random.Key) :
    load c program entropy = .ok (c.load program entropy) := by
  rw [load, loadProgram_eq, ok_bind, Console.load]
  cases ((Machine.fresh c.config entropy).load program).fault with
  | none => rfl
  | some fault => rfl

/-- No load of a source traps. -/
theorem loadRom_eq (c : Console) (rom : Rom) (entropy : Random.Key) :
    loadRom c rom entropy = .ok (c.loadRom rom entropy) := by
  unfold loadRom Console.loadRom
  cases rom.contents with
  | ok program => exact load_eq c program entropy
  | error fault => rfl

/-- No reset traps. -/
theorem reset_eq (c : Console) (entropy : Random.Key) :
    reset c entropy = .ok (c.reset entropy) := by
  rw [reset, load_eq, ok_bind]
  rfl

/-! ### Running -/

/-- Executes an instruction that stands at `address` as `opcode`. -/
def executeAt (c : Console) (opcode : Opcode) (instr : Instruction) (address : UInt16) :
    Guarded (Reply Instruction) := do
  let outcome ← execute instr c.machine.advance
  match outcome.fault with
  | none =>
    let m := outcome.machine
    return ⟨.ok instr, { c with machine := m, redraw := c.redraw || instr.touchesScreen },
      [.executed opcode instr m.registers m.index m.pc]⟩
  | some fault =>
    return ⟨.error fault, { c with machine := { outcome.machine with pc := address } },
      [.failed opcode instr address fault]⟩

/-- Runs the instruction that the program counter points at. -/
def step (c : Console) : Guarded (Reply Instruction) := do
  let address := c.machine.pc
  match ← fetch c.machine with
  | .error fault => return ⟨.error fault, c, [.fetchFailed address fault]⟩
  | .ok opcode =>
    match ← decode? opcode with
    | none => return ⟨.error (.unknownOpcode opcode address), c, [.unknownOpcode opcode address]⟩
    | some instr => executeAt c opcode instr address

/-- Goes on with a run by up to `n` steps. -/
def extend (r : Run) : Nat → Guarded Run
  | 0 => return r
  | n + 1 => do
    let reply ← step r.console
    let log := r.log ++ reply.log.toArray
    match reply.result with
    | .ok instr => extend ⟨r.executed.push instr, none, reply.console, log⟩ n
    | .error fault => return ⟨r.executed, some fault, reply.console, log⟩

/-- Runs `n` steps and then ticks the timers. -/
def runFrame (c : Console) (n : Nat) : Guarded (Reply Bool) := do
  let r ← extend (.start c) n
  match r.fault with
  | none =>
    let machine ← tick r.console.machine
    return ⟨.ok r.touchedScreen, { r.console with machine }, r.log.toList⟩
  | some fault => return ⟨.error fault, r.console, r.log.toList⟩

/-- No execution traps. -/
theorem executeAt_eq (c : Console) (opcode : Opcode) (instr : Instruction) (address : UInt16) :
    executeAt c opcode instr address = .ok (c.execute opcode instr address) := by
  rw [executeAt, execute_eq, ok_bind, Console.execute]
  cases (instr.execute c.machine.advance).fault with
  | none => rfl
  | some fault => rfl

/-- No step traps, whatever stands in memory and wherever the program counter points. -/
theorem step_eq (c : Console) : step c = .ok c.step := by
  rw [step, fetch_eq, ok_bind, Console.step, Console.fetch]
  cases c.machine.fetch with
  | error fault => rfl
  | ok opcode =>
    dsimp only
    rw [decode?_eq, ok_bind]
    cases Instruction.decode? opcode with
    | none => rfl
    | some instr => exact executeAt_eq c opcode instr c.machine.pc

/-- No run traps. -/
theorem extend_eq (r : Run) (n : Nat) : extend r n = .ok (r.extend n) := by
  -- What has run so far is part of the run that goes on, so it stays general.
  induction n generalizing r with
  | zero => rfl
  | succ n ih =>
    rw [extend, step_eq, ok_bind, Run.extend]
    cases r.console.step.result with
    | ok instr => exact ih _
    | error fault => rfl

/-- No frame traps. -/
theorem runFrame_eq (c : Console) (n : Nat) : runFrame c n = .ok (c.runFrame n) := by
  rw [runFrame, extend_eq, ok_bind, Console.runFrame, Console.run]
  cases ((Run.start c).extend n).fault with
  | some fault => rfl
  | none =>
    dsimp only
    rw [tick_eq, ok_bind]
    rfl

/-! ### Calls -/

/-- Carries out a call. -/
def perform (c : Console) : Call → Guarded (Reply Answer)
  | .load program entropy => return (← load c program entropy).map fun () => .done
  | .loadRom rom entropy => return (← loadRom c rom entropy).map fun () => .done
  | .reset entropy => return (← reset c entropy).map fun () => .done
  | .fetch => return ⟨(← fetch c.machine).map .opcode, c, []⟩
  | .step => return (← step c).map .executed
  | .runFrame steps => return (← runFrame c steps).map .redrawn
  | .tick => return ⟨.ok .done, { c with machine := ← tick c.machine }, []⟩
  -- A key that is not on the pad is refused, and nothing is indexed by it.
  | .press key => return c.perform (.press key)
  | .release key => return c.perform (.release key)
  | .takeScreen => return c.perform .takeScreen

/-- The replies to a list of calls. -/
def replies (c : Console) : List Call → Guarded (List (Reply Answer))
  | [] => return []
  | call :: rest => do
    let reply ← perform c call
    return reply :: (← replies reply.console rest)

/-- No call traps. -/
theorem perform_eq (c : Console) (call : Call) : perform c call = .ok (c.perform call) := by
  cases call with
  | load program entropy =>
    rw [perform, load_eq]
    rfl
  | loadRom rom entropy =>
    rw [perform, loadRom_eq]
    rfl
  | reset entropy =>
    rw [perform, reset_eq]
    rfl
  | fetch =>
    rw [perform, fetch_eq]
    rfl
  | step =>
    rw [perform, step_eq]
    rfl
  | runFrame steps =>
    rw [perform, runFrame_eq]
    rfl
  | tick =>
    rw [perform, tick_eq]
    rfl
  | press key => rfl
  | release key => rfl
  | takeScreen => rfl

/-- No list of calls traps. -/
theorem replies_eq (c : Console) (calls : List Call) :
    replies c calls = .ok (c.replies calls) := by
  induction calls generalizing c with
  | nil => rfl
  | cons call rest ih =>
    rw [replies, perform_eq, ok_bind, ih, ok_bind]
    rfl

end Guarded

namespace Console

/-- There is a reply to each call. -/
theorem length_replies (c : Console) (calls : List Call) :
    (c.replies calls).length = calls.length := by
  induction calls generalizing c with
  | nil => rfl
  | cons call rest ih => rw [replies, List.length_cons, List.length_cons, ih]

/-- Nothing that a host can do traps. With every access to an array, every slice, every sum and
difference of indices and every shift guarded, an instruction with any operands does on any machine
what it does without guards, and so do a fetch, a tick, loading a program of any length and drawing
a sprite anywhere. To move the program counter wraps around. The guards are not idle: an empty write
behind the end of memory would trap, and it is never reached. So each of any calls on any console
gets its reply, which is an answer or a fault. -/
theorem nothing_traps :
    (∀ (instr : Instruction) (m : Machine), Guarded.execute instr m = .ok (instr.execute m)) ∧
    (∀ m : Machine, Guarded.fetch m = .ok m.fetch ∧ Guarded.tick m = .ok m.tick ∧
      m.advance.pc.toNat = (m.pc.toNat + 2) % 0x10000 ∧
      m.rewind.pc.toNat = (m.pc.toNat + 0xFFFE) % 0x10000) ∧
    (∀ (m : Machine) (program : List UInt8),
      Guarded.loadProgram m program = .ok (m.load program)) ∧
    (∀ (s : Screen) (sprite : List UInt8) (x y : Nat),
      Guarded.blit s sprite x y = .ok ⟨s.draw sprite x y, s.collides sprite x y⟩) ∧
    (∀ (m : Memory) (address : Nat),
      Guarded.write m address [] = .ok (m.write address []) ↔ address ≤ 0x1000) ∧
    ∀ (c : Console) (calls : List Call),
      Guarded.replies c calls = .ok (c.replies calls) ∧
      (c.replies calls).length = calls.length := by
  refine ⟨Guarded.execute_eq, fun m => ⟨Guarded.fetch_eq m, Guarded.tick_eq m, ?_, ?_⟩,
    Guarded.loadProgram_eq, Guarded.blit_eq, Guarded.write_nil_eq_ok_iff,
    fun c calls => ⟨Guarded.replies_eq c calls, c.length_replies calls⟩⟩
  · exact UInt16.toNat_add m.pc 2
  · rw [Machine.rewind, UInt16.toNat_sub, Nat.add_comm]
    rfl

end Console

end Chip8
