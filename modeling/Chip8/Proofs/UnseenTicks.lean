import Chip8.Proofs.Lockstep

/-!
# `Chip8.Proofs.UnseenTicks`: programs that do not read the delay

A tick changes the two timers and nothing else. One instruction reads the delay, and none reads the
sound. So a program that does not read the delay cannot tell how often the timers were ticked, or
what they started from, and no program can tell what the sound started from.

Both are instances of `Alike.after_of_heard`. For the first (`Alike.after_of_unseen`), the machines
agree but for the two timers, and the calls that are not shown are the ticks. For the second, they
agree but for the sound, and all calls are shown.

What the two histories have in common is what is heard of them. A console without a seed takes its
random bytes from the entropy of loads and resets, so there it is not enough that the calls are the
same (`not_ticks_are_unseen_of_bare`).
-/

set_option autoImplicit false

namespace Chip8

open Machine (Component)

namespace Machine

/-- A tick leaves everything but the timers alone. -/
theorem agreeExcept_tick (m : Machine) : AgreeExcept [.delay, .sound] m.tick m := by
  intro p hp
  cases p <;> simp_all [Component.Same, tick]

end Machine

namespace Console

section

variable {config : Config} {c d : Console}

/-- What is not a tick is not one without its entropy either. -/
theorem decide_bare_ne_tick (call : Call) : decide (call.bare ≠ .tick) = decide (call ≠ .tick) := by
  cases call <;> rfl

/-- A tick changes hidden components only when the timers are hidden. -/
theorem perform_of_not_shown_tick {call : Call} (hcall : decide (call ≠ .tick) = false) :
    ∃ m, m.AgreeExcept [.delay, .sound] c.machine ∧
      (c.perform call).console = { c with machine := m } := by
  obtain rfl : call = .tick := by simpa using hcall
  exact ⟨c.machine.tick, c.machine.agreeExcept_tick, rfl⟩

/-- Histories of which the same is heard but for ticks have the same answers, apart from those of
the ticks, if the delay is not read. -/
theorem Alike.after_of_ticks
    (h : Alike (Machine.AgreeExcept [.delay, .sound]) config config c d)
    {calls calls' : List Call}
    (hsame : (calls.filter (· ≠ .tick)).map (Call.heard config)
      = (calls'.filter (· ≠ .tick)).map (Call.heard config))
    (hreads : ∀ x before after, .executed (.readDelay x) before after ∉ c.events calls) :
    c.answers (· ≠ .tick) calls = d.answers (· ≠ .tick) calls' ∧
      Alike (Machine.AgreeExcept [.delay, .sound]) config config (c.after calls)
        (d.after calls') := by
  refine h.after_of_unseen (by simp) decide_bare_ne_tick (fun _ _ => perform_of_not_shown_tick)
    hsame ?_
  intro instr before after hmem q hq hhidden
  -- The delay is not read in this history, and the sound in none.
  rcases List.mem_cons.mp hhidden with rfl | hhidden
  · obtain ⟨x, rfl⟩ := Instruction.delay_mem_reads_iff.mp hq
    exact hreads x before after hmem
  · obtain rfl := List.mem_singleton.mp hhidden
    exact instr.sound_notMem_reads hq

/-- Histories of which the same is heard have the same answers whatever the sound is. -/
theorem Alike.after_of_sound (h : Alike (Machine.AgreeExcept [.sound]) config config c d)
    {calls calls' : List Call}
    (hsame : calls.map (Call.heard config) = calls'.map (Call.heard config)) :
    c.answers (fun _ => true) calls = d.answers (fun _ => true) calls' ∧
      Alike (Machine.AgreeExcept [.sound]) config config (c.after calls) (d.after calls') := by
  have hkeeps : ∀ instr before after, .executed instr before after ∈ c.events calls →
      instr.Keeps (Machine.AgreeExcept [.sound]) := by
    intro instr before after hmem
    refine Instruction.keeps_of_reads fun q hq hhidden => ?_
    obtain rfl := List.mem_singleton.mp hhidden
    exact instr.sound_notMem_reads hq
  exact h.after_of_same (Machine.lockstep_self config (by simp)) rfl hsame hkeeps

end

/-- Programs that do not read the delay do not notice ticks. Take two consoles that are equal but
for their timers, and two histories that are equal but for ticks. Suppose that the consoles have a
seed, or that the loads and resets of the two histories are given the same entropy (`Call.heard`).
If no step of the first history reads the delay, then the calls that are not ticks have the same
results in both, and the consoles are equal afterwards but for their timers. And if the consoles are
equal but for the sound and the histories are equal, again with a seed or with the same entropy,
then the same holds whatever the steps do, for all calls, and the delays are equal too. -/
theorem ticks_are_unseen (c : Console) (delay sound : UInt8) (calls calls' : List Call) :
    let d := { c with machine := { c.machine with delay, sound } }
    ((calls.filter (· ≠ .tick)).map (Call.heard c.config)
        = (calls'.filter (· ≠ .tick)).map (Call.heard c.config) →
      (∀ x before after, .executed (.readDelay x) before after ∉ c.events calls) →
      c.answers (· ≠ .tick) calls = d.answers (· ≠ .tick) calls' ∧
      ∃ delay sound, d.after calls' = { c.after calls with
        machine := { (c.after calls).machine with delay, sound } }) ∧
    (delay = c.machine.delay →
      calls.map (Call.heard c.config) = calls'.map (Call.heard c.config) →
      c.answers (fun _ => true) calls = d.answers (fun _ => true) calls' ∧
      ∃ sound, d.after calls' = { c.after calls with
        machine := { (c.after calls).machine with sound } }) := by
  intro d
  refine ⟨?_, ?_⟩
  · intro hsame hreads
    have hcd : Alike (Machine.AgreeExcept [.delay, .sound]) c.config c.config c d :=
      c.alike_of_agreeExcept fun p hp => by cases p <;> simp_all [Component.Same]
    obtain ⟨hanswers, halike⟩ := hcd.after_of_ticks hsame hreads
    exact ⟨hanswers, _, _, halike.eq_of_config halike.machine.eq_replace⟩
  · intro hdelay hsame
    have hcd : Alike (Machine.AgreeExcept [.sound]) c.config c.config c d :=
      c.alike_of_agreeExcept fun p hp => by cases p <;> simp_all [Component.Same]
    obtain ⟨hanswers, halike⟩ := hcd.after_of_sound hsame
    exact ⟨hanswers, _, halike.eq_of_config halike.machine.eq_replace⟩

/-- A program that sets both timers and then keeps jumping to its last instruction. -/
def timing : List UInt8 := [0x60, 0x05, 0xF0, 0x15, 0xF0, 0x18, 0x12, 0x06]

/-- With a seed, it answers alike from other timers and with more ticks, across a reset that is
given other entropy. -/
theorem ticks_are_unseen_reset :
    let c := (createWith (Config.withSeed {} 7) timing .zero).console
    let d := { c with machine := { c.machine with delay := 3, sound := 9 } }
    let e := { c with machine := { c.machine with sound := 9 } }
    let other : Random.Key := .replicate 8 1
    let calls := [Call.step, .tick, .step, .takeScreen, .reset .zero, .step]
    let calls' := [Call.tick, .step, .step, .tick, .takeScreen, .reset other, .tick, .tick, .step,
      .tick]
    let again := [Call.step, .tick, .step, .takeScreen, .reset other, .step]
    c.answers (· ≠ .tick) calls = d.answers (· ≠ .tick) calls' ∧
    (∃ delay sound, d.after calls' = { c.after calls with
      machine := { (c.after calls).machine with delay, sound } }) ∧
    c.answers (fun _ => true) calls = e.answers (fun _ => true) again ∧
    ∃ sound, e.after again = { c.after calls with
      machine := { (c.after calls).machine with sound } } := by
  intro c d e other calls calls' again
  obtain ⟨hticks, -⟩ := ticks_are_unseen c 3 9 calls calls'
  obtain ⟨-, hsound⟩ := ticks_are_unseen c c.machine.delay 9 calls again
  have hexecuted : (c.events calls).filterMap Event.instruction?
      = [.load 0 5, .setDelay 0, .load 0 5] := by decide +kernel
  obtain ⟨hanswers, hlast⟩ := hticks (by decide) fun x before after hmem => by
    have hmem := Event.mem_filterMap_instruction? hmem
    rw [hexecuted] at hmem
    simp at hmem
  obtain ⟨hanswers', hlast'⟩ := hsound rfl (by decide)
  exact ⟨hanswers, hlast, hanswers', hlast'⟩

/-- Without a seed, it is not enough that the calls are the same but for ticks and entropy. -/
theorem not_ticks_are_unseen_of_bare :
    ¬ ∀ (c : Console) (delay sound : UInt8) (calls calls' : List Call),
      let d := { c with machine := { c.machine with delay, sound } }
      (calls.filter (· ≠ .tick)).map Call.bare = (calls'.filter (· ≠ .tick)).map Call.bare →
      (∀ x before after, .executed (.readDelay x) before after ∉ c.events calls) →
      c.answers (· ≠ .tick) calls = d.answers (· ≠ .tick) calls' ∧
      ∃ delay sound, d.after calls' = { c.after calls with
        machine := { (c.after calls).machine with delay, sound } } := by
  intro h
  obtain ⟨-, delay, sound, hlast⟩ := h (ofConfig {} .zero) 3 9 (drawOnce .zero)
    (drawOnce (.replicate 8 1)) rfl fun x before after hmem => by
      have hmem := Event.mem_filterMap_instruction? hmem
      rw [instructions_drawOnce] at hmem
      simp at hmem
  have hregisters := congrArg (·.machine.registers) hlast
  dsimp only at hregisters
  exact registers_drawOnce_ne rfl rfl hregisters

end Console

end Chip8
