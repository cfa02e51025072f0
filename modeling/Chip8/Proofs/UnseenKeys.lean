import Chip8.Proofs.Lockstep

/-!
# `Chip8.Proofs.UnseenKeys`: programs that do not ask for keys

Three instructions read the keypad: the two skips that test a key, and the one that waits for a
key. No instruction changes it. So a program that executes none of the three cannot tell which keys
were pressed or released, in which order, or whether the pad has them.

This is an instance of `Alike.after_of_unseen`. The machines agree but for the keypad, and the
calls that are not shown are the key events. A key that the pad does not have is refused, which is
a result that is not shown either. Without a seed, the entropy of loads and resets has to be the
same too (`not_keys_are_unseen_of_bare`).
-/

set_option autoImplicit false

namespace Chip8

open Machine (Component)

/-- A key goes down or up. -/
def Call.isKeyEvent : Call → Bool
  | .press _ | .release _ => true
  | _ => false

namespace Machine

/-- Machines that differ in the keypad agree in everything else. -/
theorem agreeExcept_keypad (m : Machine) (keypad : Keypad) :
    AgreeExcept [.keypad] { m with keypad } m := by
  intro p hp
  cases p <;> simp_all [Component.Same]

end Machine

namespace Console

variable {c d : Console}

/-- No step changes the keypad. -/
theorem keypad_step_of_ok {instr : Instruction} (h : c.step.result = .ok instr) :
    c.step.console.machine.keypad = c.machine.keypad := by
  rw [console_step_of_ok h]
  exact instr.keypad_execute c.machine.advance

/-- A key event changes the keypad, or nothing. -/
theorem perform_of_isKeyEvent {call : Call} (hcall : call.isKeyEvent = true) :
    ∃ keypad, (c.perform call).console = { c with machine := { c.machine with keypad } } := by
  cases call with
  | press key =>
    obtain ⟨keypad, hm⟩ := c.machine.press_eq key
    refine ⟨keypad, ?_⟩
    rw [← hm]
    rfl
  | release key =>
    obtain ⟨keypad, hm⟩ := c.machine.release_eq key
    refine ⟨keypad, ?_⟩
    rw [← hm]
    rfl
  | _ => exact nomatch hcall

/-- Histories of which the same is heard but for key events have the same answers, apart from those
of the key events, if no step reads the keypad. -/
theorem Alike.after_of_keyEvents {config : Config}
    (h : Alike (Machine.AgreeExcept [.keypad]) config config c d) {calls calls' : List Call}
    (hsame : (calls.filter (!·.isKeyEvent)).map (Call.heard config)
      = (calls'.filter (!·.isKeyEvent)).map (Call.heard config))
    (hreads : ∀ instr before after, .executed instr before after ∈ c.events calls →
      .keypad ∉ instr.reads) :
    c.answers (!·.isKeyEvent) calls = d.answers (!·.isKeyEvent) calls' ∧
      Alike (Machine.AgreeExcept [.keypad]) config config (c.after calls) (d.after calls') := by
  refine h.after_of_unseen (by simp) (fun call => by cases call <;> rfl) ?_ hsame ?_
  · intro c call hcall
    have hkey : call.isKeyEvent = true := by simpa using hcall
    obtain ⟨keypad, hperform⟩ := c.perform_of_isKeyEvent hkey
    exact ⟨_, c.machine.agreeExcept_keypad keypad, hperform⟩
  · intro instr before after hmem q hq hhidden
    obtain rfl := List.mem_singleton.mp hhidden
    exact hreads instr before after hmem hq

/-- Programs that do not ask for keys do not notice them. Take two consoles that are equal but for
their keypads, and two histories that are equal but for key events, of keys that the pad has or of
others. Suppose that the consoles have a seed, or that the loads and resets of the two histories are
given the same entropy (`Call.heard`). If no step of the first history tests a key or waits for one,
then the calls that are not key events have the same results in both, and the consoles are equal
afterwards but for their keypads. And no instruction changes the keypad: neither on any machine, nor
in any step of a history, with a seed or without. -/
theorem keys_are_unseen (c : Console) (keypad : Keypad) (calls calls' : List Call) :
    let d := { c with machine := { c.machine with keypad } }
    ((calls.filter (!·.isKeyEvent)).map (Call.heard c.config)
        = (calls'.filter (!·.isKeyEvent)).map (Call.heard c.config) →
      (∀ x before after,
        .executed (.skip (.keyDown x)) before after ∉ c.events calls ∧
        .executed (.skip (.keyUp x)) before after ∉ c.events calls ∧
        .executed (.awaitKey x) before after ∉ c.events calls) →
      c.answers (!·.isKeyEvent) calls = d.answers (!·.isKeyEvent) calls' ∧
      ∃ keypad, d.after calls' = { c.after calls with
        machine := { (c.after calls).machine with keypad } }) ∧
    (∀ (instr : Instruction) (m : Machine), (instr.execute m).machine.keypad = m.keypad) ∧
    ∀ instr before after, .executed instr before after ∈ c.events calls →
      after.keypad = before.keypad := by
  intro d
  refine ⟨?_, Instruction.keypad_execute, ?_⟩
  · intro hsame hasks
    have hcd : Alike (Machine.AgreeExcept [.keypad]) c.config c.config c d :=
      c.alike_of_agreeExcept fun p hp => (c.machine.agreeExcept_keypad keypad p hp).symm
    have hreads : ∀ instr before after, .executed instr before after ∈ c.events calls →
        .keypad ∉ instr.reads := by
      intro instr before after hmem hread
      obtain ⟨x, rfl | rfl | rfl⟩ := Instruction.keypad_mem_reads_iff.mp hread
      · exact (hasks x before after).1 hmem
      · exact (hasks x before after).2.1 hmem
      · exact (hasks x before after).2.2 hmem
    obtain ⟨hanswers, halike⟩ := hcd.after_of_keyEvents hsame hreads
    exact ⟨hanswers, _, halike.eq_of_config halike.machine.eq_replace⟩
  · exact forall_executed_mem_events (Q := fun _ before after => after.keypad = before.keypad)
      (fun _ _ => keypad_step_of_ok) c calls

/-- A console with a seed and a program that sets a register and then keeps adding to it. -/
def counting : Console :=
  (createWith (Config.withSeed {} 7) [0x60, 0x05, 0x70, 0x01, 0x12, 0x02] .zero).console

/-- Two steps and a frame, with a reset between them, and keys in between. -/
def countingCalls : List Call :=
  [.step, .press 0x7, .step, .release 0x10, .reset .zero, .runFrame 1]

/-- The same with other keys, some of which the pad does not have, and other entropy. -/
def countingCalls' : List Call :=
  [.press 0xA, .press 0x20, .step, .step, .reset (.replicate 8 1), .press 0x2, .release 0xA,
    .runFrame 1]

/-- The program answers alike when another key is down at first, and with the other keys. -/
theorem keys_are_unseen_reset :
    let held : Keypad := ⟨Keypad.released.down.set 3 true⟩
    let d := { counting with machine := { counting.machine with keypad := held } }
    counting.answers (!·.isKeyEvent) countingCalls = d.answers (!·.isKeyEvent) countingCalls' ∧
    (∃ keypad, d.after countingCalls' = { counting.after countingCalls with
      machine := { (counting.after countingCalls).machine with keypad } }) ∧
    ∀ instr before after, .executed instr before after ∈ counting.events countingCalls →
      after.keypad = before.keypad := by
  intro held d
  obtain ⟨hunseen, -, hkept⟩ := keys_are_unseen counting held countingCalls countingCalls'
  have hexecuted : (counting.events countingCalls).filterMap Event.instruction?
      = [.load 0 5, .addByte 0 1, .load 0 5] := by decide +kernel
  obtain ⟨hanswers, hlast⟩ := hunseen (by decide) fun x before after => by
    refine ⟨fun hmem => ?_, fun hmem => ?_, fun hmem => ?_⟩
    all_goals
      have hmem := Event.mem_filterMap_instruction? hmem
      rw [hexecuted] at hmem
      simp at hmem
  exact ⟨hanswers, hlast, hkept⟩

/-- Without a seed, it is not enough that the calls are the same but for key events and entropy. -/
theorem not_keys_are_unseen_of_bare :
    ¬ ∀ (c : Console) (keypad : Keypad) (calls calls' : List Call),
      let d := { c with machine := { c.machine with keypad } }
      (calls.filter (!·.isKeyEvent)).map Call.bare
        = (calls'.filter (!·.isKeyEvent)).map Call.bare →
      (∀ x before after,
        .executed (.skip (.keyDown x)) before after ∉ c.events calls ∧
        .executed (.skip (.keyUp x)) before after ∉ c.events calls ∧
        .executed (.awaitKey x) before after ∉ c.events calls) →
      c.answers (!·.isKeyEvent) calls = d.answers (!·.isKeyEvent) calls' ∧
      ∃ keypad, d.after calls' = { c.after calls with
        machine := { (c.after calls).machine with keypad } } := by
  intro h
  have hdraws : ∀ instr before after,
      .executed instr before after ∈ (ofConfig {} .zero).events (drawOnce .zero) →
        instr = .random 0 0xFF := by
    intro instr before after hmem
    have hmem := Event.mem_filterMap_instruction? hmem
    rwa [instructions_drawOnce, List.mem_singleton] at hmem
  obtain ⟨-, keypad, hlast⟩ := h (ofConfig {} .zero) ⟨Keypad.released.down.set 3 true⟩
    (drawOnce .zero) (drawOnce (.replicate 8 1)) rfl fun x before after =>
      ⟨fun hmem => (nomatch hdraws _ _ _ hmem), fun hmem => (nomatch hdraws _ _ _ hmem),
        fun hmem => (nomatch hdraws _ _ _ hmem)⟩
  have hregisters := congrArg (·.machine.registers) hlast
  dsimp only at hregisters
  exact registers_drawOnce_ne rfl rfl hregisters

end Console

end Chip8
