import Chip8.Proofs.Steering
import Chip8.Proofs.Stuck

/-!
# `Chip8.Proofs.Reachable`: the consoles that a host can bring about

A console is `Reachable` if some sequence of calls leads to it from a console that was created,
with any entropy for the console and for each of the calls. A console in the middle of a frame is
among them: it is reached by the steps that the frame has taken so far.

`Reachable.machine_induction` is the induction over all of them, done once. What holds of every
machine that was just loaded, and is kept by an instruction that is fetched and succeeds, and
does not depend on timers and keys, holds of every machine that can be reached.
The calls of a host come down to these cases by `machine_perform` and `machine_load`.
-/

set_option autoImplicit false

namespace Chip8

namespace Console

/-- The console can be brought about. -/
inductive Reachable : Console → Prop
  | create (config : Config) (entropy : Random.Key) : Reachable (create config entropy).console
  | createWith {config : Config} {program : List UInt8} {entropy : Random.Key}
      (h : (createWith config program entropy).result = .ok ()) :
      Reachable (createWith config program entropy).console
  | perform {c : Console} (h : Reachable c) (call : Call) : Reachable (c.perform call).console

/-- A step leads from one reachable console to another. -/
theorem Reachable.step {c : Console} (h : Reachable c) : Reachable c.step.console :=
  h.perform .step

/-- So does a history. -/
theorem Reachable.after {c : Console} (h : Reachable c) (calls : List Call) :
    Reachable (c.after calls) := by
  induction calls generalizing c with
  | nil => exact h
  | cons call calls ih => exact ih (h.perform call)

/-! ### Calls, by what they do to the machine -/

/-- A call that neither starts over nor takes steps changes timers and keys at most. -/
theorem machine_perform (c : Console) {call : Call} (hstart : call.startsOver = false)
    (hstep : call ≠ .step) (hframe : ∀ n, call ≠ .runFrame n) :
    ∃ delay sound keypad,
      (c.perform call).console.machine = { c.machine with delay, sound, keypad } := by
  cases call with
  | load | loadRom | reset => exact nomatch hstart
  | step => exact absurd rfl hstep
  | runFrame n => exact absurd rfl (hframe n)
  | fetch => exact ⟨_, _, _, rfl⟩
  | tick => exact ⟨_, _, _, rfl⟩
  | press key =>
    obtain ⟨keypad, hm⟩ := c.machine.press_eq key
    exact ⟨_, _, keypad, hm⟩
  | release key =>
    obtain ⟨keypad, hm⟩ := c.machine.release_eq key
    exact ⟨_, _, keypad, hm⟩
  | takeScreen =>
    refine ⟨c.machine.delay, c.machine.sound, c.machine.keypad, ?_⟩
    show c.takeScreen.2.machine = c.machine
    unfold takeScreen
    split <;> rfl

/-- A load leaves the machine as it was, or that of a console that was just loaded. -/
theorem machine_load (c : Console) (program : List UInt8) (entropy : Random.Key) :
    (c.load program entropy).console.machine = c.machine ∨
    (c.load program entropy).console.machine = (loaded c.config program entropy).machine := by
  by_cases hfits : program.length ≤ Memory.programLimit
  · rw [c.load_of_fits hfits]
    exact .inr rfl
  · rw [c.load_of_large (Nat.lt_of_not_le hfits)]
    exact .inl rfl

/-! ### Induction -/

section Induction

variable {P : Machine → Prop}
  (hloaded : ∀ config program entropy, P (loaded config program entropy).machine)
  (hexecute : ∀ (m : Machine) (opcode : Opcode) (instr : Instruction), P m →
    m.fetch = .ok opcode → Instruction.decode? opcode = some instr →
    (instr.execute m.advance).fault = none → P (instr.execute m.advance).machine)
  (hhost : ∀ (m : Machine) (delay sound : UInt8) (keypad : Keypad), P m →
    P { m with delay, sound, keypad })

include hloaded in
/-- A load keeps what holds of machines that were just loaded. -/
theorem load_keeps {c : Console} (h : P c.machine) (program : List UInt8)
    (entropy : Random.Key) : P (c.load program entropy).console.machine := by
  rcases c.machine_load program entropy with hm | hm
  · rw [hm]
    exact h
  · rw [hm]
    exact hloaded c.config program entropy

include hexecute in
/-- A step keeps what its instruction keeps. -/
theorem step_keeps {c : Console} (h : P c.machine) : P c.step.console.machine := by
  cases hresult : c.step.result with
  | ok instr =>
    obtain ⟨opcode, hfetch, hdecode, hdone, hs⟩ := step_of_ok hresult
    rw [hs]
    exact hexecute c.machine opcode instr h hfetch hdecode hdone
  | error fault =>
    rw [console_step_of_error hresult]
    exact h

include hhost in
/-- Every other call but a frame keeps what does not depend on timers and keys. -/
theorem host_keeps {c : Console} (h : P c.machine) {call : Call} (hstart : call.startsOver = false)
    (hstep : call ≠ .step) (hframe : ∀ n, call ≠ .runFrame n) :
    P (c.perform call).console.machine := by
  obtain ⟨delay, sound, keypad, hm⟩ := c.machine_perform hstart hstep hframe
  rw [hm]
  exact hhost c.machine delay sound keypad h

include hloaded hexecute hhost

/-- Every call keeps what holds after loads and is kept by instructions and the host. -/
theorem perform_keeps {c : Console} (h : P c.machine) (call : Call) :
    P (c.perform call).console.machine := by
  cases call with
  | load program entropy => exact load_keeps hloaded h program entropy
  | loadRom rom entropy =>
    show P (c.loadRom rom entropy).console.machine
    unfold loadRom
    cases rom.contents with
    | ok program => exact load_keeps hloaded h program entropy
    | error fault => exact h
  | reset entropy =>
    -- The program is taken out before it is loaded again, which leaves the machine.
    exact load_keeps (c := { c with program := [] }) hloaded h c.program entropy
  | step => exact step_keeps hexecute h
  | runFrame n =>
    exact runFrame_keeps (P := fun c => P c.machine) (fun _ h => step_keeps hexecute h)
      (fun d h => hhost d.machine _ _ d.machine.keypad h) n h
  | fetch | tick | press | release | takeScreen =>
    exact host_keeps hhost h rfl (nomatch ·) fun _ hframe => nomatch hframe

/-- What a load establishes, and instructions and the host keep, holds of every machine that can
be reached. -/
theorem Reachable.machine_induction {c : Console} (h : c.Reachable) : P c.machine := by
  induction h with
  -- A console without a program has the machine of the empty one.
  | create config entropy => exact hloaded config [] entropy
  | @createWith config program entropy _ =>
    exact load_keeps (c := ofConfig config entropy) hloaded (hloaded config [] entropy) program
      entropy
  | perform _ call ih => exact perform_keeps hloaded hexecute hhost ih call

end Induction

end Console

end Chip8
