import Chip8.Console.Call

/-!
# `Chip8.Proofs.History`: what every step keeps, a history keeps

Inductions over the three ways in which a console goes on: a run of steps, a frame and a
list of calls. What one step keeps, a run keeps (`run_keeps`); with the tick, a frame keeps
it too (`runFrame_keeps`). `afterSteps` is the console after a number of steps in a row,
where a run would stop at the first fault, and `StepsSucceed` says that there is none.

`unroll` writes each frame of a history out as the steps that it takes and its tick. The
history stays the same (`after_unroll`), and what it passes through within a frame can then be
spoken of: the consoles after its prefixes.
-/

set_option autoImplicit false

namespace Chip8

namespace Console

/-! ### Runs and frames -/

section Keeps

variable {P : Console → Prop} (hstep : ∀ c, P c → P c.step.console)
include hstep

/-- What every step keeps, a run keeps, whether it stops at a fault or not. -/
theorem run_keeps (n : Nat) {c : Console} (h : P c) : P (c.run n).console := by
  induction n generalizing c with
  | zero => exact h
  | succ n ih =>
    cases hresult : c.step.result with
    | ok instr =>
      rw [run_succ_of_ok n hresult]
      exact ih (hstep c h)
    | error fault =>
      -- The run stops here, with the step that failed as its last.
      rw [run_succ_of_error n hresult]
      exact hstep c h

/-- What every step and the tick keep, a frame keeps. -/
theorem runFrame_keeps (htick : ∀ c, P c → P c.tick) (n : Nat) {c : Console} (h : P c) :
    P (c.runFrame n).console := by
  have hrun := run_keeps hstep n h
  unfold runFrame
  dsimp only
  split
  · exact htick _ hrun
  · exact hrun

end Keeps

/-! ### Lists of calls -/

/-- A history can be cut in two. -/
theorem after_append (c : Console) (first second : List Call) :
    c.after (first ++ second) = (c.after first).after second :=
  List.foldl_append

/-- The console after `n` steps, of which some may have failed. -/
def afterSteps (c : Console) (n : Nat) : Console := c.after (List.replicate n .step)

/-- One more step at the end of several. -/
theorem afterSteps_succ (c : Console) (n : Nat) :
    c.afterSteps (n + 1) = (c.afterSteps n).step.console := by
  rw [afterSteps, List.replicate_succ', after_append]
  rfl

/-- One more step at the beginning of several. -/
theorem afterSteps_succ' (c : Console) (n : Nat) :
    c.afterSteps (n + 1) = c.step.console.afterSteps n := by
  rw [afterSteps, List.replicate_succ]
  rfl

/-- Each of the first `n` steps succeeds. -/
def StepsSucceed (c : Console) (n : Nat) : Prop :=
  ∀ k < n, ∃ instr, (c.afterSteps k).step.result = .ok instr

/-- No step fails if none is taken. -/
theorem stepsSucceed_zero (c : Console) : c.StepsSucceed 0 := by
  intro k hk
  exact absurd hk (Nat.not_lt_zero k)

/-- Several steps succeed if the first does, and the others do from there on. -/
theorem stepsSucceed_succ_iff (c : Console) (n : Nat) :
    c.StepsSucceed (n + 1) ↔
      (∃ instr, c.step.result = .ok instr) ∧ c.step.console.StepsSucceed n := by
  constructor
  · intro h
    refine ⟨h 0 (Nat.succ_pos n), ?_⟩
    intro k hk
    rw [← afterSteps_succ']
    exact h (k + 1) (Nat.succ_lt_succ hk)
  · rintro ⟨hfirst, hrest⟩ k hk
    cases k with
    | zero => exact hfirst
    | succ k =>
      rw [afterSteps_succ']
      exact hrest k (Nat.lt_of_succ_lt_succ hk)

/-! ### Frames written out -/

/-- How many steps a run of up to `n` takes. The step that fails and ends the run is counted. -/
def stepsTaken (c : Console) : Nat → Nat
  | 0 => 0
  | n + 1 =>
    match c.step.result with
    | .ok _ => c.step.console.stepsTaken n + 1
    | .error _ => 1

/-- The calls that a call stands for: for a frame its steps, and the tick if no step failed. -/
def unrollCall (c : Console) : Call → List Call
  | .runFrame n =>
    List.replicate (c.stepsTaken n) .step ++ if (c.run n).fault.isNone then [.tick] else []
  | call => [call]

/-- A history with its frames written out. -/
def unroll (c : Console) : List Call → List Call
  | [] => []
  | call :: calls => c.unrollCall call ++ (c.perform call).console.unroll calls

/-- A run leads where the steps that it takes lead. -/
theorem afterSteps_stepsTaken (c : Console) (n : Nat) :
    c.afterSteps (c.stepsTaken n) = (c.run n).console := by
  induction n generalizing c with
  | zero => rfl
  | succ n ih =>
    cases hresult : c.step.result with
    | ok instr =>
      rw [run_succ_of_ok n hresult]
      simp only [stepsTaken, hresult]
      rw [afterSteps_succ']
      exact ih c.step.console
    | error fault =>
      -- The run ends here, and so do the steps.
      rw [run_succ_of_error n hresult]
      simp only [stepsTaken, hresult]
      rfl

/-- Unrolling a call into its steps leaves the console where the call leaves it. -/
theorem after_unrollCall (c : Console) (call : Call) :
    c.after (c.unrollCall call) = (c.perform call).console := by
  cases call with
  | runFrame n =>
    show c.after (_ ++ _) = (c.runFrame n).console
    rw [after_append]
    show (c.afterSteps (c.stepsTaken n)).after _ = _
    rw [afterSteps_stepsTaken, runFrame]
    cases (c.run n).fault with
    | none => rfl
    | some fault => rfl
  | _ => rfl

/-- A history leads to the same console when its frames are written out. -/
theorem after_unroll (c : Console) (calls : List Call) :
    c.after (c.unroll calls) = c.after calls := by
  induction calls generalizing c with
  | nil => rfl
  | cons call calls ih =>
    rw [unroll, after_append, after_unrollCall, ih]
    rfl

/-- A frame that is written out has no call but steps and ticks in it. -/
theorem mem_unrollCall {c : Console} {call call' : Call} (h : call' ∈ c.unrollCall call) :
    call' = .step ∨ call' = .tick ∨ (call' = call ∧ ∀ n, call' ≠ .runFrame n) := by
  cases call with
  | runFrame n =>
    rcases List.mem_append.mp h with hstep | htick
    · exact .inl (List.eq_of_mem_replicate hstep)
    · split at htick
      · exact .inr (.inl (List.mem_singleton.mp htick))
      · exact nomatch htick
  | _ =>
    obtain rfl := List.mem_singleton.mp h
    exact .inr (.inr ⟨rfl, fun n hn => nomatch hn⟩)

/-- A history that is written out has no frame left, and only steps and ticks are new in it. -/
theorem mem_unroll {c : Console} {calls : List Call} {call : Call} (h : call ∈ c.unroll calls) :
    call = .step ∨ call = .tick ∨ (call ∈ calls ∧ ∀ n, call ≠ .runFrame n) := by
  induction calls generalizing c with
  | nil => exact nomatch h
  | cons first calls ih =>
    rcases List.mem_append.mp h with hfirst | hrest
    · rcases mem_unrollCall hfirst with hstep | htick | ⟨rfl, hframe⟩
      · exact .inl hstep
      · exact .inr (.inl htick)
      · exact .inr (.inr ⟨List.mem_cons_self, hframe⟩)
    · rcases ih hrest with hstep | htick | ⟨hmem, hframe⟩
      · exact .inl hstep
      · exact .inr (.inl htick)
      · exact .inr (.inr ⟨List.mem_cons_of_mem _ hmem, hframe⟩)

/-- What holds of the calls of a history, of a step and of a tick holds of the calls of the
history written out. -/
theorem forall_mem_unroll {P : Call → Prop} (hstep : P .step) (htick : P .tick) {c : Console}
    {calls : List Call} (hcalls : ∀ call ∈ calls, P call) {call : Call}
    (h : call ∈ c.unroll calls) :
    P call ∧ ∀ n, call ≠ .runFrame n := by
  rcases mem_unroll h with rfl | rfl | ⟨hmem, hframe⟩
  · exact ⟨hstep, fun _ hn => nomatch hn⟩
  · exact ⟨htick, fun _ hn => nomatch hn⟩
  · exact ⟨hcalls call hmem, hframe⟩

end Console

end Chip8
