import Chip8.Console.Call
import Chip8.Proofs.Reset
import Chip8.Proofs.StepResult

/-!
# `Chip8.Proofs.Stuck`: a console that fails goes on failing

A step that fails leaves the console as it was, so the next one fails again. The other calls of
a host change timers, keys and the redraw, none of which decides whether a step fails
(`result_step_congr`). So a console is stuck until it is started over, by a load or a reset.

`StuckAt c₀ c` is the invariant: `c` differs from `c₀` in timers, keys and redraw at most.
`StuckAt.perform` keeps it over one call and `StuckAt.after` over a history, and
`stuck_until_startsOver` reads the statements about the history off it.
-/

set_option autoImplicit false

namespace Chip8

/-- The call starts the console over. -/
def Call.startsOver : Call → Bool
  | .load .. | .loadRom .. | .reset _ => true
  | _ => false

/-- The press of a key changes the keypad alone. -/
theorem Machine.press_eq (m : Machine) (k : UInt8) :
    ∃ keypad, (m.press k).machine = { m with keypad } := by
  unfold press
  cases m.keypad.press k with
  | error _ => exact ⟨m.keypad, rfl⟩
  | ok keypad => exact ⟨keypad, rfl⟩

/-- So does the release of a key. -/
theorem Machine.release_eq (m : Machine) (k : UInt8) :
    ∃ keypad, (m.release k).machine = { m with keypad } := by
  unfold release
  cases m.keypad.release k with
  | error _ => exact ⟨m.keypad, rfl⟩
  | ok keypad => exact ⟨keypad, rfl⟩

namespace Console

/-- A frame whose first step fails is that step. -/
theorem runFrame_of_error {c : Console} {fault : Fault} (h : c.step.result = .error fault)
    (n : Nat) : c.runFrame (n + 1) = ⟨.error fault, c, c.step.log⟩ := by
  simp only [runFrame, run_succ_of_error n h, console_step_of_error h]

/-! ### The invariant -/

/-- Two consoles with the same configuration and program, whose machines differ in the timers and
the keys at most. -/
structure StuckAt (c₀ c : Console) : Prop where
  machine : ∃ delay sound keypad, c.machine = { c₀.machine with delay, sound, keypad }
  config : c.config = c₀.config
  program : c.program = c₀.program

/-- A console is stuck at itself. -/
theorem StuckAt.refl (c : Console) : StuckAt c c := ⟨⟨_, _, _, rfl⟩, rfl, rfl⟩

section

variable {c₀ c : Console} {fault : Fault}

/-- The step of a stuck console fails with the fault that it is stuck at. -/
theorem StuckAt.result_step (h : StuckAt c₀ c) (hfault : c₀.step.result = .error fault) :
    c.step.result = .error fault := by
  obtain ⟨delay, sound, keypad, hm⟩ := h.machine
  apply result_step_congr hfault <;> rw [hm]

/-- A tick keeps the invariant. -/
theorem StuckAt.tick (h : StuckAt c₀ c) : StuckAt c₀ c.tick := by
  obtain ⟨delay, sound, keypad, hm⟩ := h.machine
  refine ⟨⟨c.tick.machine.delay, c.tick.machine.sound, keypad, ?_⟩, h.config, h.program⟩
  simp only [Console.tick, Machine.tick, hm]

/-- A change of the keypad keeps the invariant. -/
theorem StuckAt.setKeypad (h : StuckAt c₀ c) {m : Machine}
    (hm : ∃ keypad, m = { c.machine with keypad }) : StuckAt c₀ { c with machine := m } := by
  obtain ⟨delay, sound, _, hc⟩ := h.machine
  obtain ⟨keypad, rfl⟩ := hm
  refine ⟨⟨delay, sound, keypad, ?_⟩, h.config, h.program⟩
  show { c.machine with keypad } = _
  rw [hc]

/-- A call that does not start over keeps the invariant. -/
theorem StuckAt.perform (h : StuckAt c₀ c) (hfault : c₀.step.result = .error fault) {call : Call}
    (hcall : call.startsOver = false) : StuckAt c₀ (c.perform call).console := by
  have hstep := h.result_step hfault
  cases call with
  | load | loadRom | reset => exact nomatch hcall
  | fetch => exact h
  | step =>
    show StuckAt c₀ c.step.console
    rw [console_step_of_error hstep]
    exact h
  | runFrame n =>
    show StuckAt c₀ (c.runFrame n).console
    cases n with
    | zero => exact h.tick
    | succ n =>
      rw [runFrame_of_error hstep]
      exact h
  | tick => exact h.tick
  | press key => exact h.setKeypad (c.machine.press_eq key)
  | release key => exact h.setKeypad (c.machine.release_eq key)
  | takeScreen =>
    show StuckAt c₀ c.takeScreen.2
    unfold Console.takeScreen
    split
    · exact ⟨h.machine, h.config, h.program⟩
    · exact h

/-- A history that does not start over keeps the invariant. -/
theorem StuckAt.after (h : StuckAt c₀ c) (hfault : c₀.step.result = .error fault)
    {calls : List Call} (hcalls : ∀ call ∈ calls, call.startsOver = false) :
    StuckAt c₀ (c.after calls) := by
  induction calls generalizing c with
  | nil => exact h
  | cons call calls ih =>
    have hcall := hcalls call List.mem_cons_self
    exact ih (h.perform hfault hcall) fun call' hmem => hcalls call' (List.mem_cons_of_mem _ hmem)

end

/-! ### Stuck, and started over -/

/-- A load of a program that fits starts over, whatever came before: from its bytes, from a
source that yields them, or by a reset of the console that holds them. -/
theorem startsOver_forgets {c : Console} {program : List UInt8}
    (hfits : program.length ≤ Memory.programLimit) (entropy : Random.Key) :
    (c.load program entropy).console = loaded c.config program entropy ∧
    (∀ rom : Rom, rom.contents = .ok program →
      (c.loadRom rom entropy).console = loaded c.config program entropy) ∧
    (c.program = program → (c.reset entropy).console = loaded c.config program entropy) := by
  have hload := c.load_of_fits hfits entropy
  refine ⟨by rw [hload], ?_, ?_⟩
  · intro rom hrom
    simp only [loadRom, hrom, hload]
  · intro hprogram
    have hretains : Retains c.config program c := ⟨rfl, hprogram, hfits⟩
    rw [hretains.reset_eq]

/-- A program that starts with the instruction to clear the screen takes its first step. -/
theorem result_step_loaded_clearScreen (config : Config) (entropy : Random.Key) :
    (loaded config [0x00, 0xE0] entropy).step.result = .ok .clearScreen := by
  have hfetch : (loaded config [0x00, 0xE0] entropy).fetch = .ok 0x00E0 := by
    show (Memory.ofProgram [0x00, 0xE0]).readOpcode 0x200 = .ok 0x00E0
    decide +kernel
  have hdecode : Instruction.decode? 0x00E0 = some .clearScreen := rfl
  rw [step_of_done hfetch hdecode rfl]
  rfl

/-- A console that fails is stuck until it is started over. Take a console whose step fails,
and any history without a load and a reset: each step in it and each step after it fails with
the same fault, each frame of one instruction or more does so too, and registers, index, program
counter, open calls, memory, random bytes and screen stay. So a history after which a step ends
in another way has a load or a reset in it. Each of the three ways to start over then gives the
console that a load into a new one gives, with the same entropy for both, and the first step of
such a console may succeed. -/
theorem stuck_until_startsOver (c : Console) (fault : Fault)
    (hfault : c.step.result = .error fault) :
    (∀ calls : List Call, (∀ call ∈ calls, call.startsOver = false) →
      let later := c.after calls
      (∀ before call rest, calls = before ++ call :: rest →
        (call = .step ∨ ∃ n, 1 ≤ n ∧ call = .runFrame n) →
        ((c.after before).perform call).result = .error fault) ∧
      (later.step.result = .error fault ∧
        ∀ n, 1 ≤ n → (later.runFrame n).result = .error fault) ∧
      (later.machine.registers = c.machine.registers ∧ later.machine.index = c.machine.index ∧
        later.machine.pc = c.machine.pc ∧ later.machine.calls = c.machine.calls ∧
        later.machine.memory = c.machine.memory ∧ later.machine.random = c.machine.random ∧
        later.machine.screen = c.machine.screen) ∧
      ∀ program : List UInt8, program.length ≤ 0xE00 → ∀ entropy created,
        let new := ((ofConfig c.config created).load program entropy).console
        (later.load program entropy).console = new ∧
        (∀ rom : Rom, rom.contents = .ok program → (later.loadRom rom entropy).console = new) ∧
        (c.program = program → (later.reset entropy).console = new)) ∧
    (∀ calls : List Call, (c.after calls).step.result ≠ .error fault →
      ∃ call ∈ calls, call.startsOver = true) ∧
    ∀ entropy created, ((ofConfig c.config created).load [0x00, 0xE0] entropy).console.step.result
      = .ok .clearScreen := by
  have hstuck {calls : List Call} (hcalls : ∀ call ∈ calls, call.startsOver = false) :
      StuckAt c (c.after calls) := (StuckAt.refl c).after hfault hcalls
  have hframe {d : Console} (hd : d.step.result = .error fault) {n : Nat} (hn : 1 ≤ n) :
      (d.runFrame n).result = .error fault := by
    obtain ⟨n, rfl⟩ := Nat.exists_eq_succ_of_ne_zero (Nat.ne_of_gt hn)
    rw [runFrame_of_error hd]
  refine ⟨?_, ?_, ?_⟩
  · intro calls hcalls later
    have hlater := hstuck hcalls
    have hstep := hlater.result_step hfault
    refine ⟨?_, ⟨hstep, fun n hn => hframe hstep hn⟩, ?_, ?_⟩
    · rintro before call rest rfl hkind
      have hbefore := (hstuck fun call hmem =>
        hcalls call (List.mem_append_left _ hmem)).result_step hfault
      rcases hkind with rfl | ⟨n, hn, rfl⟩
      · show (c.after before).step.result.map _ = _
        rw [hbefore]
        rfl
      · show ((c.after before).runFrame n).result.map _ = _
        rw [hframe hbefore hn]
        rfl
    · obtain ⟨delay, sound, keypad, hm⟩ := hlater.machine
      rw [show later.machine = _ from hm]
      exact ⟨rfl, rfl, rfl, rfl, rfl, rfl, rfl⟩
    · intro program hfits entropy created new
      have hnew : new = loaded later.config program entropy := by
        show ((ofConfig c.config created).load program entropy).console = _
        rw [load_of_fits _ hfits, hlater.config]
        rfl
      obtain ⟨hload, hrom, hreset⟩ := later.startsOver_forgets hfits entropy
      rw [hnew]
      exact ⟨hload, hrom, fun h => hreset (hlater.program.trans h)⟩
  · intro calls hmoved
    by_contra hnone
    refine hmoved ((hstuck fun call hmem => ?_).result_step hfault)
    exact Bool.eq_false_iff.mpr fun h => hnone ⟨call, hmem, h⟩
  · intro entropy created
    rw [load_of_fits _ (by decide)]
    exact result_step_loaded_clearScreen c.config entropy

/-- Steps, frames, ticks and keys do not get the console on that stores past the last byte. -/
theorem stuck_until_startsOver_atLastByte :
    let quiet := [Call.step, .tick, .press 0x5, .press 0x10, .runFrame 3, .release 0x5, .fetch,
      .runFrame 0, .takeScreen]
    atLastByte.step.result = .error (.outOfBounds 0x1000) ∧
    (∀ call ∈ quiet, call.startsOver = false) ∧
    ((atLastByte.after (quiet.take 4)).perform (.runFrame 3)).result
      = .error (.outOfBounds 0x1000) ∧
    (atLastByte.after quiet).step.result = .error (.outOfBounds 0x1000) ∧
    (atLastByte.after quiet).machine.pc = 0x200 := by
  intro quiet
  have hfault : atLastByte.step.result = .error (.outOfBounds 0x1000) := by decide +kernel
  have hquiet : ∀ call ∈ quiet, call.startsOver = false := by decide
  obtain ⟨hstuck, -, -⟩ := stuck_until_startsOver atLastByte _ hfault
  obtain ⟨hcalls, ⟨hstep, -⟩, ⟨-, -, hpc, -⟩, -⟩ := hstuck quiet hquiet
  exact ⟨hfault, hquiet, hcalls _ _ (quiet.drop 5) rfl (.inr ⟨3, by decide, rfl⟩), hstep, hpc⟩

end Console

end Chip8
