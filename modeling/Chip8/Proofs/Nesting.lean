import Chip8.Proofs.Reachable
import Mathlib.Data.List.Infix

/-!
# `Chip8.Proofs.Nesting`: a call that is open stays until it returns

`Machine.stack` lists the open calls from the bottom to the top. A call puts the address behind
itself on top (`stack_step_call`), a return goes to the address on top and takes it off
(`stack_step_ret`), and nothing else touches the stack. So what the stack rests on stays as long
as the stack does not get shorter than that: over one call (`RestsOn.perform`), and by
induction over a history (`RestsOn.after`).

`open_call_stays` says this of the address that a call puts on the stack, for every history that
does not start over. A history passes through consoles in the middle of a frame as well. They are
the consoles after the prefixes of the history with its frames written out (`Console.unroll`).
That calls nest without a limit is the other half of the theorem: a program that calls itself
opens one more call with every step.
-/

set_option autoImplicit false

namespace Chip8

/-- The addresses to return to, from the bottom to the top. -/
def Machine.stack (m : Machine) : List UInt16 := m.calls.reverse

namespace Console

variable {base : List UInt16} {c : Console}

/-! ### Calls and returns -/

/-- A call puts the address behind itself on top of the stack. -/
theorem stack_step_call {address : UInt16} (h : c.step.result = .ok (.call address)) :
    c.step.console.machine.stack = c.machine.stack ++ [c.machine.pc + 2] := by
  cases steers_step h with
  | straight hstraight => cases hstraight
  | call _ hcalls =>
    unfold Machine.stack
    rw [hcalls, List.reverse_cons]
    rfl

/-- A return goes to the address on top of the stack and takes it off. -/
theorem stack_step_ret (h : c.step.result = .ok .ret) :
    c.machine.stack = c.step.console.machine.stack ++ [c.step.console.machine.pc] := by
  cases steers_step h with
  | straight hstraight => cases hstraight
  | ret hopen hpc hcalls =>
    unfold Machine.stack
    rw [hcalls, hpc, ← List.reverse_cons, ← hopen]
    rfl

/-- A step that succeeds stands in memory in full, so the address behind it does not wrap. -/
theorem toNat_pc_add_two {instr : Instruction} (h : c.step.result = .ok instr) :
    (c.machine.pc + 2).toNat = c.machine.pc.toNat + 2 := by
  obtain ⟨opcode, hfetch, -⟩ := step_of_ok h
  exact Machine.toNat_pc_advance_of_fetch hfetch

/-! ### What the stack rests on -/

/-- The stack has `base` at its bottom. -/
def RestsOn (base : List UInt16) (c : Console) : Prop := base <+: c.machine.stack

/-- Only the open calls matter to what a console rests on. -/
theorem RestsOn.of_calls (h : RestsOn base c) {c' : Console}
    (hcalls : c'.machine.calls = c.machine.calls) : RestsOn base c' := by
  unfold RestsOn Machine.stack
  rw [hcalls]
  exact h

/-- A step keeps what the stack rests on, unless it leaves less than that. -/
theorem RestsOn.step (h : RestsOn base c)
    (hdeep : base.length ≤ c.step.console.machine.stack.length) :
    RestsOn base c.step.console := by
  cases hresult : c.step.result with
  | error fault =>
    rw [console_step_of_error hresult]
    exact h
  | ok instr =>
    rcases (steers_step hresult).calls_cases with hcalls | ⟨address, rfl, -⟩ | ⟨rfl, -⟩
    · exact h.of_calls hcalls
    · unfold RestsOn
      rw [stack_step_call hresult]
      exact h.trans (List.prefix_append _ _)
    · -- Both stacks are prefixes of the one before the return, and the base is the shorter one.
      unfold RestsOn at h
      rw [stack_step_ret hresult] at h
      exact List.prefix_of_prefix_length_le h (List.prefix_append _ _) hdeep

/-- So does every call that neither starts over nor runs a frame. -/
theorem RestsOn.perform (h : RestsOn base c) {call : Call} (hstart : call.startsOver = false)
    (hframe : ∀ n, call ≠ .runFrame n)
    (hdeep : base.length ≤ (c.perform call).console.machine.stack.length) :
    RestsOn base (c.perform call).console := by
  by_cases hstep : call = .step
  · subst hstep
    exact h.step hdeep
  · obtain ⟨delay, sound, keypad, hm⟩ := c.machine_perform hstart hstep hframe
    refine h.of_calls ?_
    rw [hm]

/-- So does a history of such calls, if no part of it leaves less. -/
theorem RestsOn.after (h : RestsOn base c) {calls : List Call}
    (hcalls : ∀ call ∈ calls, call.startsOver = false ∧ ∀ n, call ≠ .runFrame n)
    (hdeep : ∀ earlier, earlier <+: calls →
      base.length ≤ (c.after earlier).machine.stack.length) :
    RestsOn base (c.after calls) := by
  -- The console moves on with each call, so the prefixes of the rest are those behind the call.
  induction calls generalizing c with
  | nil => exact h
  | cons call calls ih =>
    obtain ⟨hstart, hframe⟩ := hcalls call List.mem_cons_self
    have hfirst : RestsOn base (c.perform call).console :=
      h.perform hstart hframe (hdeep [call] (List.prefix_append [call] calls))
    refine ih hfirst (fun call' hmem => hcalls call' (List.mem_cons_of_mem _ hmem)) ?_
    intro earlier hearlier
    exact hdeep (call :: earlier) (List.cons_prefix_cons.mpr ⟨rfl, hearlier⟩)

/-- Written out, a history that does not start over consists of such calls. -/
theorem of_mem_unroll {calls : List Call} (hcalls : ∀ call ∈ calls, call.startsOver = false)
    {call : Call} (h : call ∈ c.unroll calls) :
    call.startsOver = false ∧ ∀ n, call ≠ .runFrame n :=
  forall_mem_unroll (P := fun call => call.startsOver = false) rfl rfl hcalls h

/-! ### No limit to the depth -/

/-- The console after loading a program that calls itself. -/
def selfCalling (config : Config) (entropy : Random.Key) : Console :=
  loaded config [0x22, 0x00] entropy

/-- Its step is the same call at every depth. -/
theorem step_selfCalling (config : Config) (entropy : Random.Key) (calls : List UInt16) :
    let first := selfCalling config entropy
    let c := { first with machine := { first.machine with calls } }
    c.step.result = .ok (.call 0x200) ∧
    c.step.console
      = { first with machine := { first.machine with calls := 0x202 :: calls } } := by
  intro first c
  have hfetch : c.fetch = .ok 0x2200 := by
    show (Memory.ofProgram [0x22, 0x00]).readOpcode 0x200 = .ok 0x2200
    decide +kernel
  have hdecode : Instruction.decode? 0x2200 = some (.call 0x200) := rfl
  rw [step_of_done hfetch hdecode rfl]
  exact ⟨rfl, rfl⟩

/-- After `n` steps of it, `n` calls are open. -/
theorem afterSteps_selfCalling (config : Config) (entropy : Random.Key) (n : Nat) :
    let first := selfCalling config entropy
    first.afterSteps n
      = { first with machine := { first.machine with calls := List.replicate n 0x202 } } := by
  intro first
  -- The program counter comes back to the call, and the stack is all that changes.
  induction n with
  | zero => rfl
  | succ n ih =>
    rw [afterSteps_succ, ih]
    exact (step_selfCalling config entropy _).2

/-! ### Calls that are open -/

/-- A call that is open stays until it returns. Take a console whose step executes a call, and
write out a history that does not start over, which leads where the history leads. As long as
the stack has not become shorter than the call left it, it rests on the stack from before the call
and the address behind the call. A return that is executed while nothing else is on the stack goes
to this address and leaves the stack from before the call. Calls nest without a limit: at every
depth there is a console, made by a program that calls itself, whose step executes one more
call. -/
theorem open_call_stays :
    (∀ (c : Console) (address : UInt16), c.step.result = .ok (.call address) →
      let below := c.machine.stack
      let back := c.machine.pc + 2
      let called := c.step.console
      (back.toNat = c.machine.pc.toNat + 2 ∧ called.machine.stack = below ++ [back]) ∧
      ∀ calls : List Call, (∀ call ∈ calls, call.startsOver = false) →
        called.after (called.unroll calls) = called.after calls ∧
        ∀ before, before <+: called.unroll calls →
        (∀ earlier, earlier <+: before →
          below.length + 1 ≤ (called.after earlier).machine.stack.length) →
        let d := called.after before
        below ++ [back] <+: d.machine.stack ∧
        (d.step.result = .ok .ret → d.machine.stack.length = below.length + 1 →
          d.step.console.machine.pc = back ∧ d.step.console.machine.stack = below)) ∧
    ∀ (config : Config) (created entropy : Random.Key) (n : Nat),
      let c := ((ofConfig config created).load [0x22, 0x00] entropy).console.afterSteps n
      c.machine.stack.length = n ∧ c.step.result = .ok (.call 0x200) := by
  refine ⟨?_, ?_⟩
  · intro c address hcall below back called
    have hcalled : called.machine.stack = below ++ [back] := stack_step_call hcall
    refine ⟨⟨toNat_pc_add_two hcall, hcalled⟩, ?_⟩
    intro calls hcalls
    refine ⟨called.after_unroll calls, ?_⟩
    intro before hbefore hdeep d
    have hrests : RestsOn (below ++ [back]) d := by
      refine RestsOn.after ?_ ?_ ?_
      · unfold RestsOn
        rw [hcalled]
      · intro call hmem
        exact of_mem_unroll hcalls (hbefore.subset hmem)
      · intro earlier hearlier
        rw [List.length_append]
        exact hdeep earlier hearlier
    refine ⟨hrests, ?_⟩
    intro hret hlength
    -- Nothing is above the address, so this is all of the stack, and the return splits it up.
    have hstack : below ++ [back] = d.machine.stack := by
      refine hrests.eq_of_length ?_
      rw [hlength, List.length_append]
      rfl
    rw [stack_step_ret hret] at hstack
    obtain ⟨hbelow, hback⟩ := List.append_inj' hstack rfl
    exact ⟨(List.singleton_inj.mp hback).symm, hbelow.symm⟩
  · intro config created entropy n c
    have hc : c = (selfCalling config entropy).afterSteps n := by
      show ((ofConfig config created).load [0x22, 0x00] entropy).console.afterSteps n = _
      rw [load_of_fits _ (by decide)]
      rfl
    refine ⟨?_, ?_⟩
    · rw [hc, afterSteps_selfCalling]
      show (List.replicate n _).reverse.length = n
      rw [List.length_reverse, List.length_replicate]
    · rw [hc, afterSteps_selfCalling]
      exact (step_selfCalling config entropy _).1

/-- A program with one call inside another, the second of them open. -/
def nested : Console :=
  (loaded {} [0x22, 0x04, 0x12, 0x02, 0x22, 0x08, 0x00, 0xEE, 0x62, 0x01, 0x22, 0x0E, 0x00, 0xEE,
    0x00, 0xEE] .zero).step.console

/-- The inner call of the program makes a third call in a frame and returns from it. The frame
also has the return of the inner call in it, which goes to the address behind the inner call, and
the stack below it is that of the outer call. -/
theorem open_call_stays_nested :
    let history := [Call.tick, .press 0x3, .runFrame 5]
    let before := [Call.tick, .press 0x3, .step, .step, .step]
    let d := nested.step.console.after before
    nested.step.result = .ok (.call 0x208) ∧ nested.machine.stack = [0x202] ∧
    before <+: nested.step.console.unroll history ∧
    [0x202, 0x206] <+: d.machine.stack ∧
    d.step.result = .ok .ret ∧ d.step.console.machine.pc = 0x206 ∧
    d.step.console.machine.stack = [0x202] := by
  intro history before
  dsimp only
  -- One evaluation for all of it, since each goes through the same steps.
  have hrun : nested.step.result = .ok (.call 0x208) ∧ nested.machine.stack = [0x202] ∧
      nested.machine.pc + 2 = 0x206 ∧ before <+: nested.step.console.unroll history ∧
      (∀ earlier ∈ before.inits,
        2 ≤ (nested.step.console.after earlier).machine.stack.length) ∧
      (nested.step.console.after before).step.result = .ok .ret ∧
      (nested.step.console.after before).machine.stack.length = 2 := by
    decide +kernel
  obtain ⟨hcall, hstack, hback, hprefix, hall, hret, hlength⟩ := hrun
  obtain ⟨-, hopen⟩ := open_call_stays.1 nested 0x208 hcall
  rw [hstack, hback] at hopen
  obtain ⟨-, hprefixes⟩ := hopen history (by decide)
  obtain ⟨hrests, hreturn⟩ := hprefixes before hprefix fun earlier hearlier =>
    hall earlier ((List.mem_inits _ _).mpr hearlier)
  obtain ⟨hpc, hbelow⟩ := hreturn hret hlength
  exact ⟨hcall, hstack, hprefix, hrests, hret, hpc, hbelow⟩

end Console

end Chip8
