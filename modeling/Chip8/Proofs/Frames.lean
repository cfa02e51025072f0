import Chip8.Proofs.Redraw

/-!
# `Chip8.Proofs.Frames`: a frame is its steps and a tick

A frame is one call in which a console takes up to `n` steps, and a host cannot look in between.
Here it is compared with the same steps taken one by one (`Console.afterSteps`). A run leads where
its steps lead, if they all succeed (`run_of_stepsSucceed`), and otherwise to the console before the
first one that fails (`run_of_step_error`). One of the two is always the case
(`stepsSucceed_or_fails`).

On its way the run keeps two accounts of what was drawn: the answer of the frame, which speaks of
this run alone, and the redraw flag, which stays up from earlier. `touchedScreen_run_iff` and
`redraw_run_iff` compare both with the steps.
-/

set_option autoImplicit false

namespace Chip8

namespace Console

variable {c : Console} {n : Nat}

/-! ### Where a run leads -/

/-- A run whose steps succeed leads where they lead. -/
theorem run_of_stepsSucceed (h : c.StepsSucceed n) :
    (c.run n).fault = none ∧ (c.run n).console = c.afterSteps n := by
  induction n generalizing c with
  | zero => exact ⟨rfl, rfl⟩
  | succ n ih =>
    obtain ⟨⟨instr, hresult⟩, hrest⟩ := (stepsSucceed_succ_iff c n).mp h
    rw [run_succ_of_ok n hresult, afterSteps_succ']
    exact ih hrest

/-- A run ends at the first step that fails, with the console before it. -/
theorem run_of_step_error {k : Nat} {fault : Fault} (hk : k < n) (hran : c.StepsSucceed k)
    (hfault : (c.afterSteps k).step.result = .error fault) :
    (c.run n).fault = some fault ∧ (c.run n).console = c.afterSteps k := by
  induction k generalizing c n with
  | zero =>
    replace hfault : c.step.result = .error fault := hfault
    cases n with
    | zero => exact absurd hk (Nat.not_lt_zero 0)
    | succ n =>
      rw [run_succ_of_error n hfault]
      exact ⟨rfl, console_step_of_error hfault⟩
  | succ k ih =>
    obtain ⟨⟨instr, hresult⟩, hrest⟩ := (stepsSucceed_succ_iff c k).mp hran
    rw [afterSteps_succ'] at hfault ⊢
    cases n with
    | zero => exact absurd hk (Nat.not_lt_zero _)
    | succ n =>
      rw [run_succ_of_ok n hresult]
      exact ih (Nat.lt_of_succ_lt_succ hk) hrest hfault

/-- Of the first `n` steps all succeed, or one of them is the first to fail. -/
theorem stepsSucceed_or_fails (c : Console) (n : Nat) :
    c.StepsSucceed n ∨
      ∃ k < n, c.StepsSucceed k ∧ ∃ fault, (c.afterSteps k).step.result = .error fault := by
  induction n with
  | zero => exact .inl (stepsSucceed_zero c)
  | succ n ih =>
    rcases ih with hran | ⟨k, hk, hfails⟩
    · cases hresult : (c.afterSteps n).step.result with
      | error fault => exact .inr ⟨n, Nat.lt_succ_self n, hran, fault, hresult⟩
      | ok instr =>
        refine .inl fun k hk => ?_
        rcases Nat.lt_succ_iff_lt_or_eq.mp hk with hk | rfl
        · exact hran k hk
        · exact ⟨instr, hresult⟩
    · exact .inr ⟨k, Nat.lt_succ_of_lt hk, hfails⟩

/-! ### What was drawn -/

/-- One of the first `n` steps executes an instruction that touches the screen. -/
def StepTouches (c : Console) (n : Nat) : Prop :=
  ∃ k < n, ∃ instr, (c.afterSteps k).step.result = .ok instr ∧ instr.touchesScreen = true

/-- As long as all steps succeed, this is what a run of them draws. -/
theorem runDraws_iff_of_stepsSucceed (h : c.StepsSucceed n) : c.RunDraws n ↔ c.StepTouches n := by
  constructor
  · rintro ⟨k, hk, -, instr, hresult, hdraws⟩
    exact ⟨k, hk, instr, hresult, instr.touchesScreen_iff.mpr hdraws⟩
  · rintro ⟨k, hk, instr, hresult, htouches⟩
    refine ⟨k, hk, fun j hj => h j (Nat.lt_trans hj hk), instr, hresult, ?_⟩
    exact instr.touchesScreen_iff.mp htouches

/-- The instructions that a run executed tell what it drew. -/
theorem touchedScreen_run_iff (c : Console) (n : Nat) :
    (c.run n).touchedScreen = true ↔ c.RunDraws n := by
  induction n generalizing c with
  | zero =>
    have hnone : (c.run 0).touchedScreen ≠ true := by
      rw [run_zero]
      simp [Run.start, Run.touchedScreen]
    refine iff_of_false hnone ?_
    rintro ⟨k, hk, -⟩
    exact absurd hk (Nat.not_lt_zero k)
  | succ n ih =>
    rw [runDraws_succ_iff]
    cases hresult : c.step.result with
    | ok instr =>
      have hfirst : c.StepDraws ↔ instr.touchesScreen = true := by
        rw [StepDraws, instr.touchesScreen_iff, hresult]
        simp
      rw [run_succ_of_ok n hresult, hfirst, ← ih]
      simp [Run.touchedScreen]
    | error fault =>
      rw [run_succ_of_error n hresult, StepDraws, hresult]
      simp [Run.touchedScreen]

/-- The redraw flag is up after a run if it was up before, or if the run drew. -/
theorem redraw_run_iff (c : Console) (n : Nat) :
    (c.run n).console.redraw = true ↔ c.redraw = true ∨ c.RunDraws n := by
  have h : InTouch (c.redraw = true) c.machine.screen c := ⟨Iff.rfl, fun _ => rfl⟩
  exact (h.run n).redraw_iff

/-- A step that does not draw leaves the screen. -/
theorem screen_step_of_not_draws (h : ¬ c.StepDraws) :
    c.step.console.machine.screen = c.machine.screen := by
  rcases c.step_cases with ⟨_, _, hs⟩ | ⟨_, _, _, hs⟩ | ⟨_, _, _, _, _, _, hs⟩ |
    ⟨opcode, instr, _, _, _, hs⟩
  · rw [hs]
  · rw [hs]
  · rw [hs]
  · have htouches : instr.touchesScreen = false := by
      rw [← Bool.not_eq_true, instr.touchesScreen_iff]
      exact fun hdraws => h ⟨instr, by rw [hs]; rfl, hdraws⟩
    rw [hs]
    exact Instruction.screen_execute htouches _

/-- A run that does not draw leaves the screen. -/
theorem screen_run_of_not_draws (h : ¬ c.RunDraws n) :
    (c.run n).console.machine.screen = c.machine.screen := by
  induction n generalizing c with
  | zero => rfl
  | succ n ih =>
    rw [runDraws_succ_iff, not_or] at h
    obtain ⟨hfirst, hrest⟩ := h
    have hscreen := screen_step_of_not_draws hfirst
    cases hresult : c.step.result with
    | ok instr =>
      rw [run_succ_of_ok n hresult]
      exact (ih fun hdraws => hrest ⟨⟨instr, hresult⟩, hdraws⟩).trans hscreen
    | error fault =>
      rw [run_succ_of_error n hresult]
      exact hscreen

/-! ### Frames -/

/-- A frame whose steps all succeed ends with a tick, and tells whether one of them drew. -/
theorem runFrame_of_fault_none (h : (c.run n).fault = none) :
    c.runFrame n = ⟨.ok (c.run n).touchedScreen, (c.run n).console.tick, (c.run n).log.toList⟩ := by
  simp only [runFrame, h]

/-- A frame with a step that fails ends there, without a tick. -/
theorem runFrame_of_fault {fault : Fault} (h : (c.run n).fault = some fault) :
    c.runFrame n = ⟨.error fault, (c.run n).console, (c.run n).log.toList⟩ := by
  simp only [runFrame, h]

/-- A console whose redraw flag is up hands out its screen. -/
theorem takeScreen_of_redraw (h : c.redraw = true) :
    c.takeScreen.1 = some c.machine.screen := by
  rw [takeScreen, if_pos h]

/-- A frame refines its steps. If the first `n` steps succeed, a frame of `n` leaves what they and
one tick leave, and answers whether one of them touched the screen. If the step after the first `k`
is the first to fail and the frame gets that far, it fails as this step does and leaves what the `k`
steps leave, without a tick. There is no third case. So a frame that answers that nothing was
touched has changed no pixel, and one that failed after it drew still makes the console hand out
its screen. -/
theorem frame_refines_steps (c : Console) :
    (∀ n, c.StepsSucceed n →
      (c.runFrame n).console = (c.afterSteps n).tick ∧
      ∃ touched, (c.runFrame n).result = .ok touched ∧ (touched = true ↔ c.StepTouches n)) ∧
    (∀ n k fault, k < n → c.StepsSucceed k → (c.afterSteps k).step.result = .error fault →
      (c.runFrame n).result = .error fault ∧ (c.runFrame n).console = c.afterSteps k ∧
      (c.StepTouches k →
        (c.runFrame n).console.takeScreen.1 = some (c.afterSteps k).machine.screen)) ∧
    (∀ n, c.StepsSucceed n ∨
      ∃ k < n, c.StepsSucceed k ∧ ∃ fault, (c.afterSteps k).step.result = .error fault) ∧
    ∀ n, (c.runFrame n).result = .ok false →
      ∀ x y, (c.runFrame n).console.machine.screen.pixel x y = c.machine.screen.pixel x y := by
  refine ⟨?_, ?_, c.stepsSucceed_or_fails, ?_⟩
  · intro n hran
    obtain ⟨hfault, hconsole⟩ := run_of_stepsSucceed hran
    rw [runFrame_of_fault_none hfault, hconsole]
    refine ⟨rfl, _, rfl, ?_⟩
    rw [touchedScreen_run_iff, runDraws_iff_of_stepsSucceed hran]
  · intro n k fault hk hran hresult
    obtain ⟨hfault, hconsole⟩ := run_of_step_error hk hran hresult
    rw [runFrame_of_fault hfault, hconsole]
    refine ⟨rfl, rfl, fun htouches => takeScreen_of_redraw ?_⟩
    -- The console after the steps is the one after the run of them, whose flag is up.
    rw [← (run_of_stepsSucceed hran).2, redraw_run_iff]
    exact .inr ((runDraws_iff_of_stepsSucceed hran).mpr htouches)
  · intro n hresult x y
    cases hfault : (c.run n).fault with
    | some fault =>
      rw [runFrame_of_fault hfault] at hresult
      exact nomatch hresult
    | none =>
      rw [runFrame_of_fault_none hfault] at hresult ⊢
      have huntouched : (c.run n).touchedScreen = false := Except.ok.inj hresult
      have hdraws : ¬ c.RunDraws n := by
        rw [← touchedScreen_run_iff, huntouched]
        exact Bool.false_ne_true
      show (c.run n).console.machine.screen.pixel x y = _
      rw [screen_run_of_not_draws hdraws]

/-- A console that is to set the index, draw one row and fail, and whose screen was taken. -/
def aboutToDraw : Console := (ofConfig {} .zero).after (drawsAndFails.take 2)

/-- A frame of one step touches nothing, a frame of two draws, and a frame of nine fails after it
drew. -/
theorem frame_refines_steps_aboutToDraw :
    let fault := Fault.unknownOpcode 0xFFFF 0x204
    (aboutToDraw.StepsSucceed 1 ∧ (aboutToDraw.runFrame 1).result = .ok false ∧
      (aboutToDraw.runFrame 1).console.machine.screen.pixel 0 0
        = aboutToDraw.machine.screen.pixel 0 0) ∧
    (aboutToDraw.StepsSucceed 2 ∧ aboutToDraw.StepTouches 2 ∧
      (aboutToDraw.runFrame 2).console = (aboutToDraw.afterSteps 2).tick) ∧
    (2 < 9 ∧ (aboutToDraw.afterSteps 2).step.result = .error fault ∧
      (aboutToDraw.runFrame 9).result = .error fault ∧
      (aboutToDraw.runFrame 9).console.takeScreen.1
        = some (aboutToDraw.afterSteps 2).machine.screen) := by
  intro fault
  have hfirst : (aboutToDraw.afterSteps 0).step.result = .ok (.setIndex 0x200) := by
    decide +kernel
  have hsecond : (aboutToDraw.afterSteps 1).step.result = .ok (.draw 0 0 1) := by decide +kernel
  have hthird : (aboutToDraw.afterSteps 2).step.result = .error fault := by decide +kernel
  have hquiet : (aboutToDraw.runFrame 1).result = .ok false := by decide +kernel
  have hone : aboutToDraw.StepsSucceed 1 := by
    intro k hk
    obtain rfl : k = 0 := by omega
    exact ⟨_, hfirst⟩
  have htwo : aboutToDraw.StepsSucceed 2 := by
    intro k hk
    obtain rfl | rfl : k = 0 ∨ k = 1 := by omega
    · exact ⟨_, hfirst⟩
    · exact ⟨_, hsecond⟩
  have htouches : aboutToDraw.StepTouches 2 := ⟨1, by decide, _, hsecond, rfl⟩
  obtain ⟨hsucceeds, hfails, -, hsame⟩ := frame_refines_steps aboutToDraw
  obtain ⟨hresult, -, htake⟩ := hfails 9 2 fault (by decide) htwo hthird
  exact ⟨⟨hone, hquiet, hsame 1 hquiet 0 0⟩, ⟨htwo, htouches, (hsucceeds 2 htwo).1⟩, by decide,
    hthird, hresult, htake htouches⟩

end Console

end Chip8
