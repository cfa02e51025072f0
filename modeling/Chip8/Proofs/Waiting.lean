import Chip8.Proofs.Reachable
import Mathlib.Logic.Function.Iterate

/-!
# `Chip8.Proofs.Waiting`: a console that waits for a key

The instruction that waits for a key is a loop of one step. The step moves on and, as long as no
key is down, moves back again, so it leaves the console as it found it (`AwaitsKey.step`). What a
host does meanwhile shows in the timers and in the redraw flag, unless it presses a key:
`Console.waited` writes this console out, and `AwaitsKey.after` says that the calls lead to it.

A key that goes down does not end the wait before a step finds it down. Up to that step the
host may do anything but start over, and timers and keys are all that changes
(`machine_after_of_steps_wait`). The step itself then has the one effect that
`step_of_key_down` gives. `wait_for_key_is_pure` puts both halves together.
-/

set_option autoImplicit false

namespace Chip8

/-- The call leaves a console waiting for a key. It neither starts over nor presses a key that the
pad has. -/
def Call.leavesWaiting : Call → Bool
  | .step | .runFrame _ | .tick | .release _ | .takeScreen | .fetch => true
  | .press key => decide (Keypad.count ≤ key.toNat)
  | .load .. | .loadRom .. | .reset _ => false

/-- The opcodes of the form `Fx0A` stand for the instruction that waits. -/
theorem Instruction.decode?_awaitKey {w : Opcode} (hfamily : w.family = 0xF)
    (hbyte : w.byte = 0x0A) : decode? w = some (.awaitKey w.x) := by
  simp only [decode?, hfamily, hbyte]
  rfl

/-! ### Host calls on a machine -/

namespace Machine

variable {m : Machine} {k : UInt8}

/-- Releasing keys of a pad on which no key is down changes nothing. -/
theorem machine_release_of_up (hup : ∀ k, m.keypad.isDown k = false) :
    (m.release k).machine = m := by
  by_cases hk : k.toNat < 16
  · have hdown : m.keypad.down[k.toNat] = false := by
      have := hup k
      rwa [Keypad.isDown, Vector.getElem?_eq_getElem hk] at this
    have hput : m.keypad.release k = .ok m.keypad := by
      simp only [Keypad.release, Keypad.put, hk, dite_true, ← hdown, Vector.set_getElem_self]
    simp only [release, hput]
    rfl
  · have hput : m.keypad.release k = .error (.invalidKey k) := by
      simp only [Keypad.release, Keypad.put, hk, dite_false]
    simp only [release, hput]
    rfl

/-- Pressing a key that the pad does not have changes nothing. -/
theorem machine_press_of_absent (hk : Keypad.count ≤ k.toNat) : (m.press k).machine = m := by
  have habsent : ¬ k.toNat < 16 := Nat.not_lt.mpr hk
  have hput : m.keypad.press k = .error (.invalidKey k) := by
    simp only [Keypad.press, Keypad.put, habsent, dite_false]
  simp only [press, hput]
  rfl

/-- Ticks change the timers alone. -/
theorem tick_iterate (m : Machine) (n : Nat) :
    ∃ delay sound, tick^[n] m = { m with delay, sound } := by
  induction n with
  | zero => exact ⟨m.delay, m.sound, rfl⟩
  | succ n ih =>
    obtain ⟨delay, sound, h⟩ := ih
    rw [Function.iterate_succ_apply', h]
    exact ⟨_, _, rfl⟩

end Machine

namespace Console

variable {c : Console} {x : UInt8} {opcode : Opcode}

/-! ### A step that waits -/

/-- The console is about to execute an instruction that waits for a key, and no key is down. -/
structure AwaitsKey (x : UInt8) (c : Console) : Prop where
  decodes : ∃ opcode, c.fetch = .ok opcode ∧ Instruction.decode? opcode = some (.awaitKey x)
  released : ∀ k, c.machine.keypad.isDown k = false

/-- The step succeeds and leaves the console as it was. -/
theorem AwaitsKey.step (h : AwaitsKey x c) :
    c.step.result = .ok (.awaitKey x) ∧ c.step.console = c := by
  obtain ⟨opcode, hfetch, hdecode⟩ := h.decodes
  have hnone : c.machine.advance.keypad.firstPressed? = none :=
    (Keypad.firstPressed?_eq_none_iff _).mpr h.released
  have hwait : (Instruction.awaitKey x).execute c.machine.advance = .done c.machine := by
    simp only [Instruction.execute, hnone, Machine.rewind_advance]
  rw [step_of_done hfetch hdecode (by rw [hwait]; rfl)]
  simp [executed, hwait, Outcome.done, Instruction.touchesScreen]

/-- Once a key is down, the step keeps the number of the lowest and moves on. -/
theorem step_of_key_down {k : UInt8} (hfetch : c.fetch = .ok opcode)
    (hdecode : Instruction.decode? opcode = some (.awaitKey x))
    (hfirst : c.machine.keypad.firstPressed? = some k) :
    c.step.result = .ok (.awaitKey x) ∧
    c.step.console = { c with
      machine := { c.machine with
        registers := c.machine.registers.set x k, pc := c.machine.pc + 2 } } := by
  have hfirst' : c.machine.advance.keypad.firstPressed? = some k := hfirst
  have hkeep : (Instruction.awaitKey x).execute c.machine.advance
      = .done (c.machine.advance.setRegister x k) := by
    simp only [Instruction.execute, hfirst']
  rw [step_of_done hfetch hdecode (by rw [hkeep]; rfl)]
  refine ⟨rfl, ?_⟩
  simp only [executed, hkeep, Instruction.touchesScreen, Bool.or_false]
  rfl

/-! ### The host while the console waits -/

/-- The console after calls that leave it waiting, none of them a frame: each tick counted the
timers down, and taking the screen lowered the redraw. -/
def waited (c : Console) (calls : List Call) : Console :=
  { c with
    machine := Machine.tick^[calls.count .tick] c.machine
    redraw := c.redraw && !calls.contains .takeScreen }

/-- Waiting through a history is waiting through its first call and then through the others. -/
theorem waited_cons (c : Console) (call : Call) (calls : List Call) :
    c.waited (call :: calls) = (c.waited [call]).waited calls := by
  simp [waited, List.count_cons, Function.iterate_add_apply, Bool.and_assoc]

/-- In the machine, only the timers have changed. -/
theorem machine_waited (c : Console) (calls : List Call) :
    ∃ delay sound, (c.waited calls).machine = { c.machine with delay, sound } :=
  c.machine.tick_iterate _

/-- A console that waits for a key still does after a history without one. -/
theorem AwaitsKey.waited (h : AwaitsKey x c) (calls : List Call) :
    AwaitsKey x (c.waited calls) := by
  obtain ⟨delay, sound, hm⟩ := c.machine_waited calls
  obtain ⟨opcode, hfetch, hdecode⟩ := h.decodes
  refine ⟨⟨opcode, ?_, hdecode⟩, ?_⟩
  · rw [fetch, hm]
    exact hfetch
  · rw [hm]
    exact h.released

/-- One call that leaves the console waiting. -/
theorem AwaitsKey.perform (h : AwaitsKey x c) {call : Call} (hcall : call.leavesWaiting = true)
    (hframe : ∀ n, call ≠ .runFrame n) : (c.perform call).console = c.waited [call] := by
  cases call with
  | load | loadRom | reset => exact nomatch hcall
  | runFrame n => exact absurd rfl (hframe n)
  | fetch => simp [Console.perform, Console.waited]
  | step =>
    show c.step.console = _
    simp [h.step.2, Console.waited]
  | tick => simp [Console.perform, Console.waited, Console.tick]
  | press key =>
    show { c with machine := (c.machine.press key).machine } = _
    rw [Machine.machine_press_of_absent (of_decide_eq_true hcall)]
    simp [Console.waited]
  | release key =>
    show { c with machine := (c.machine.release key).machine } = _
    rw [Machine.machine_release_of_up h.released]
    simp [Console.waited]
  | takeScreen =>
    show c.takeScreen.2 = _
    cases hredraw : c.redraw <;> simp [Console.takeScreen, Console.waited, hredraw]
    rw [← hredraw]

/-- Any number of them. -/
theorem AwaitsKey.after (h : AwaitsKey x c) {calls : List Call}
    (hcalls : ∀ call ∈ calls, call.leavesWaiting = true ∧ ∀ n, call ≠ .runFrame n) :
    c.after calls = c.waited calls := by
  induction calls generalizing c with
  | nil => simp [Console.after, Console.waited]
  | cons call calls ih =>
    obtain ⟨hcall, hframe⟩ := hcalls call List.mem_cons_self
    rw [waited_cons, ← ih (h.waited [call]) fun call' hmem =>
      hcalls call' (List.mem_cons_of_mem _ hmem), ← h.perform hcall hframe]
    rfl

/-- Every part of a history that is written out, frames included. -/
theorem AwaitsKey.after_of_prefix (h : AwaitsKey x c) {calls before : List Call}
    (hcalls : ∀ call ∈ calls, call.leavesWaiting = true) (hbefore : before <+: c.unroll calls) :
    c.after before = c.waited before :=
  h.after fun _ hmem =>
    forall_mem_unroll (P := fun call => call.leavesWaiting = true) rfl rfl hcalls
      (hbefore.subset hmem)

/-! ### The end of the wait -/

/-- As long as no step finds a key down, calls that do not start over change timers and keys at
most. -/
theorem machine_after_of_steps_wait {calls : List Call} (hfetch : c.fetch = .ok opcode)
    (hdecode : Instruction.decode? opcode = some (.awaitKey x))
    (hcalls : ∀ call ∈ calls, call.startsOver = false ∧ ∀ n, call ≠ .runFrame n)
    (hup : ∀ before, before ++ [.step] <+: calls →
      ∀ k, (c.after before).machine.keypad.isDown k = false) :
    ∃ delay sound keypad, (c.after calls).machine = { c.machine with delay, sound, keypad } := by
  induction calls generalizing c with
  | nil => exact ⟨_, _, _, rfl⟩
  | cons call calls ih =>
    obtain ⟨hstart, hframe⟩ := hcalls call List.mem_cons_self
    have hfirst : ∃ delay sound keypad,
        (c.perform call).console.machine = { c.machine with delay, sound, keypad } := by
      by_cases hstep : call = .step
      · subst hstep
        have hwait : AwaitsKey x c := ⟨⟨opcode, hfetch, hdecode⟩, hup [] (by simp)⟩
        refine ⟨c.machine.delay, c.machine.sound, c.machine.keypad, ?_⟩
        show c.step.console.machine = c.machine
        rw [hwait.step.2]
      · exact c.machine_perform hstart hstep hframe
    obtain ⟨delay, sound, keypad, hm⟩ := hfirst
    have hfetch' : (c.perform call).console.fetch = .ok opcode := by
      rw [fetch, hm]
      exact hfetch
    obtain ⟨delay', sound', keypad', hm'⟩ := ih hfetch'
      (fun call' hmem => hcalls call' (List.mem_cons_of_mem _ hmem))
      (fun before hbefore => hup (call :: before) (List.cons_prefix_cons.mpr ⟨rfl, hbefore⟩))
    refine ⟨delay', sound', keypad', ?_⟩
    show ((c.perform call).console.after calls).machine = _
    rw [hm', hm]

/-- The step that finds a key down, after timers and keys changed, keeps the lowest key and moves
on. -/
theorem step_of_some_key_down (hfetch : c.fetch = .ok opcode)
    (hdecode : Instruction.decode? opcode = some (.awaitKey x)) {d : Console}
    (hmachine : ∃ delay sound keypad, d.machine = { c.machine with delay, sound, keypad })
    (hdown : ∃ k, d.machine.keypad.isDown k = true) :
    ∃ k, (d.machine.keypad.isDown k = true ∧
        ∀ j, d.machine.keypad.isDown j = true → k ≤ j) ∧
      d.step.result = .ok (.awaitKey x) ∧
      d.step.console = { d with
        machine := { d.machine with
          registers := d.machine.registers.set x k, pc := d.machine.pc + 2 } } ∧
      d.step.console.machine.pc.toNat = c.machine.pc.toNat + 2 := by
  obtain ⟨delay, sound, keypad, hm⟩ := hmachine
  obtain ⟨j, hj⟩ := hdown
  obtain ⟨k, hk⟩ : ∃ k, d.machine.keypad.firstPressed? = some k := by
    refine Option.ne_none_iff_exists'.mp fun hnone => ?_
    rw [Keypad.firstPressed?_eq_none_iff] at hnone
    exact nomatch hj.symm.trans (hnone j)
  have hfetch' : d.fetch = .ok opcode := by
    rw [fetch, hm]
    exact hfetch
  obtain ⟨hresult, hconsole⟩ := step_of_key_down hfetch' hdecode hk
  refine ⟨k, Keypad.isDown_of_firstPressed? hk, hresult, hconsole, ?_⟩
  -- The opcode was fetched, so the program counter stands before the end of memory.
  rw [hconsole, hm]
  exact Machine.toNat_pc_advance_of_fetch hfetch

/-- Waiting for a key changes nothing. Take a console whose program counter points at an opcode
`Fx0A` and on which no key is down, and write out a history of calls that leave it waiting. After
every part of it the console is the one before, with as many ticks of the timers as the part has,
and without the redraw once the screen was taken, and a step executes the instruction that waits.
Now take any history that does not start over in which every step finds no key down. If a key is
down after it, the step that comes next, the first to find one, puts the lowest of the keys that
are down into register `x` and moves the program counter on by two, and nothing else changes. Until
then only timers and keys did. -/
theorem wait_for_key_is_pure (c : Console) (w : Opcode) (hfetch : c.fetch = .ok w)
    (hword : w.family = 0xF ∧ w.byte = 0x0A) (hup : ∀ k, c.machine.keypad.isDown k = false) :
    let wait := Instruction.awaitKey w.x
    (∀ calls : List Call, (∀ call ∈ calls, call.leavesWaiting = true) →
      c.after (c.unroll calls) = c.after calls ∧
      ∀ before, before <+: c.unroll calls →
        let d := c.after before
        d.step.result = .ok wait ∧ d = c.waited before ∧
        ∃ delay sound, d.machine = { c.machine with delay, sound }) ∧
    (∀ calls : List Call, (∀ call ∈ calls, call.startsOver = false) →
      (∀ before, before ++ [.step] <+: c.unroll calls →
        ∀ k, (c.after before).machine.keypad.isDown k = false) →
      let d := c.after calls
      (∃ delay sound keypad, d.machine = { c.machine with delay, sound, keypad }) ∧
      ((∃ k, d.machine.keypad.isDown k = true) →
        ∃ k, (d.machine.keypad.isDown k = true ∧
            ∀ j, d.machine.keypad.isDown j = true → k ≤ j) ∧
          d.step.result = .ok wait ∧
          d.step.console = { d with
            machine := { d.machine with
              registers := d.machine.registers.set w.x k, pc := d.machine.pc + 2 } } ∧
          d.step.console.machine.pc.toNat = c.machine.pc.toNat + 2)) := by
  have hdecode := Instruction.decode?_awaitKey hword.1 hword.2
  have hwait : AwaitsKey w.x c := ⟨⟨w, hfetch, hdecode⟩, hup⟩
  refine ⟨?_, ?_⟩
  · intro calls hcalls
    refine ⟨c.after_unroll calls, fun before hbefore => ?_⟩
    have hafter := hwait.after_of_prefix hcalls hbefore
    dsimp only
    rw [hafter]
    exact ⟨(hwait.waited before).step.1, rfl, c.machine_waited before⟩
  · intro calls hcalls hsteps
    have hmachine := machine_after_of_steps_wait hfetch hdecode
      (fun call hmem => forall_mem_unroll (P := fun call => call.startsOver = false) rfl rfl
        hcalls hmem) hsteps
    rw [c.after_unroll calls] at hmachine
    exact ⟨hmachine, step_of_some_key_down hfetch hdecode hmachine⟩

/-- A program that waits for a key and keeps it in register 1. -/
def waiting : Console := (createWith {} [0xF1, 0x0A]).console

/-- Steps, a frame, a key that the pad does not have and a key that was up do not end the wait.
Then two keys go down, and a step keeps the lower one. -/
theorem wait_for_key_is_pure_twoKeys :
    let quiet := [Call.step, .takeScreen, .runFrame 3, .press 0x10, .release 0x2, .fetch]
    let pressed := [Call.step, .press 0x7, .press 0x3, .tick, .release 0x9]
    let d := waiting.after pressed
    (waiting.fetch = .ok 0xF10A ∧ ∀ k, waiting.machine.keypad.isDown k = false) ∧
    (waiting.after quiet).step.result = .ok (.awaitKey 1) ∧
    (waiting.after quiet).machine.pc = 0x200 ∧
    d.step.result = .ok (.awaitKey 1) ∧ d.step.console.machine.registers.get 1 = 0x3 ∧
    d.step.console.machine.pc.toNat = 0x202 := by
  intro quiet pressed
  dsimp only
  have hfetch : waiting.fetch = .ok 0xF10A := by decide +kernel
  have hup : ∀ k, waiting.machine.keypad.isDown k = false :=
    (Keypad.firstPressed?_eq_none_iff _).mp (by decide +kernel)
  obtain ⟨hquiet, hpressed⟩ := wait_for_key_is_pure waiting 0xF10A hfetch (by decide) hup
  obtain ⟨hafter, hbefore⟩ := hquiet quiet (by decide)
  obtain ⟨hstep, -, delay, sound, hm⟩ := hbefore _ List.prefix_rfl
  rw [hafter] at hstep hm
  -- The one step of the second history comes first.
  have hsteps : ∀ before, before ++ [.step] <+: waiting.unroll pressed →
      ∀ k, (waiting.after before).machine.keypad.isDown k = false := by
    rintro before ⟨rest, h⟩
    cases before with
    | nil => exact hup
    | cons first before =>
      have hmem : Call.step ∈ pressed.tail := by
        rw [← show before ++ [.step] ++ rest = pressed.tail from (List.cons.inj h).2]
        simp
      exact absurd hmem (by decide)
  obtain ⟨-, hkey⟩ := hpressed pressed (by decide) hsteps
  have hlowest : (waiting.after pressed).machine.keypad.firstPressed? = some 0x3 := by
    decide +kernel
  obtain ⟨hdown, hleast⟩ := Keypad.isDown_of_firstPressed? hlowest
  obtain ⟨k, ⟨hk, hmin⟩, hresult, hconsole, hpc⟩ := hkey ⟨0x3, hdown⟩
  obtain rfl : k = 0x3 := UInt8.le_antisymm (hmin 0x3 hdown) (hleast k hk)
  have hnext : waiting.machine.pc.toNat + 2 = 0x202 := by decide +kernel
  rw [hnext] at hpc
  refine ⟨⟨hfetch, hup⟩, hstep, ?_, hresult, ?_, hpc⟩
  · rw [hm]
    rfl
  · rw [hconsole]
    show ((waiting.after pressed).machine.registers.set 1 0x3).get 1 = 0x3
    rw [Registers.get_set, if_pos rfl]

end Console

end Chip8
