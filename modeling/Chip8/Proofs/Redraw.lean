import Chip8.Proofs.History
import Chip8.Proofs.Load
import Chip8.Proofs.Step

/-!
# `Chip8.Proofs.Redraw`: the host misses no change of the screen

A console hands out its screen when the redraw flag is up, and lowers the flag. Two readings of
a history say what the host should expect of this, from the results of the calls alone:
`Console.lastTaken` is the screen that was handed out last, and `Console.RedrawnSince` says
whether since then a program was loaded or an instruction that draws was executed.

`InTouch since shown c` is the invariant: the redraw flag is up if and only if something was
redrawn, and while it is down the console shows what was handed out last. Steps keep it
(`InTouch.step`), so runs do (`InTouch.run`), calls do (`InTouch.perform`) and histories do
(`InTouch.after`).
-/

set_option autoImplicit false

namespace Chip8

/-- The instruction clears the screen or draws. -/
def Instruction.Draws (instr : Instruction) : Prop :=
  instr = .clearScreen ∨ ∃ x y height, instr = .draw x y height

/-- The instructions after which the screen counts as touched are those that draw. -/
theorem Instruction.touchesScreen_iff (instr : Instruction) :
    instr.touchesScreen = true ↔ instr.Draws := by
  cases instr <;> simp [touchesScreen, Draws]

namespace Console

/-! ### Two readings of a history -/

/-- The step executes an instruction that draws. -/
def StepDraws (c : Console) : Prop := ∃ instr, c.step.result = .ok instr ∧ instr.Draws

/-- One of up to `n` steps executes an instruction that draws, before any step fails. -/
def RunDraws (c : Console) (n : Nat) : Prop :=
  ∃ k < n, c.StepsSucceed k ∧ (c.afterSteps k).StepDraws

/-- The call loads a program, or executes an instruction that draws. -/
def Redraws (c : Console) : Call → Prop
  | .load program entropy => (c.load program entropy).result = .ok ()
  | .loadRom rom entropy => (c.loadRom rom entropy).result = .ok ()
  | .reset entropy => (c.reset entropy).result = .ok ()
  | .step => c.StepDraws
  | .runFrame n => c.RunDraws n
  | .fetch | .tick | .press _ | .release _ | .takeScreen => False

/-- The screen that the call hands out, if it hands out one. -/
def taken? (c : Console) (call : Call) : Option Screen :=
  match (c.perform call).result with
  | .ok (.screen screen) => screen
  | _ => none

/-- The screen that was handed out last, or else the one given. -/
def lastTaken (c : Console) (shown : Screen) : List Call → Screen
  | [] => shown
  | call :: calls => lastTaken (c.perform call).console ((c.taken? call).getD shown) calls

/-- Since the screen was handed out last, or else since the beginning, some call redrew. What is
given says whether this was so before. -/
def RedrawnSince (c : Console) (since : Prop) : List Call → Prop
  | [] => since
  | call :: calls =>
    RedrawnSince (c.perform call).console (c.taken? call = none ∧ (since ∨ c.Redraws call)) calls

/-! ### The invariant -/

/-- The redraw flag is up if and only if something was redrawn, and as long as it is down the
screen is the one that the host was shown. -/
structure InTouch (since : Prop) (shown : Screen) (c : Console) : Prop where
  redraw_iff : c.redraw = true ↔ since
  screen_eq : c.redraw = false → c.machine.screen = shown

variable {c : Console} {since : Prop} {shown : Screen}

/-- A new console has nothing to show, and its screen is blank. -/
theorem inTouch_ofConfig (config : Config) (entropy : Random.Key) :
    InTouch False .blank (ofConfig config entropy) :=
  ⟨iff_of_false (nomatch ·) id, fun _ => rfl⟩

/-- The invariant goes over to another way to say that something was redrawn. -/
theorem InTouch.congr (h : InTouch since shown c) {since' : Prop} (hsince : since ↔ since') :
    InTouch since' shown c :=
  ⟨h.redraw_iff.trans hsince, h.screen_eq⟩

/-- A call that changes neither the screen nor the redraw flag keeps the invariant. -/
theorem InTouch.of_same (h : InTouch since shown c) {c' : Console}
    (hredraw : c'.redraw = c.redraw) (hscreen : c'.machine.screen = c.machine.screen) :
    InTouch since shown c' where
  redraw_iff := by
    rw [hredraw]
    exact h.redraw_iff
  screen_eq hdown := by
    rw [hscreen]
    exact h.screen_eq (hredraw ▸ hdown)

/-- While the flag is up, nothing is asked of the screen. -/
theorem inTouch_of_redraw (hsince : since) (hup : c.redraw = true) : InTouch since shown c where
  redraw_iff := iff_of_true hup hsince
  screen_eq hdown := nomatch hup.symm.trans hdown

/-- An instruction raises the flag if it draws, and otherwise leaves the screen. -/
theorem InTouch.step (h : InTouch since shown c) :
    InTouch (since ∨ c.StepDraws) shown c.step.console := by
  -- A step that fails has no result that draws.
  have hfailed {fault : Fault} (hresult : c.step.result = .error fault)
      (hconsole : c.step.console = c) : InTouch (since ∨ c.StepDraws) shown c.step.console := by
    rw [hconsole]
    refine h.congr (or_iff_left ?_).symm
    rintro ⟨instr, hok, -⟩
    exact nomatch hresult.symm.trans hok
  rcases c.step_cases with ⟨_, _, hs⟩ | ⟨_, _, _, hs⟩ | ⟨_, _, _, _, _, _, hs⟩ |
    ⟨opcode, instr, _, _, _, hs⟩
  · exact hfailed (by rw [hs]) (by rw [hs])
  · exact hfailed (by rw [hs]) (by rw [hs])
  · exact hfailed (by rw [hs]) (by rw [hs])
  · have hdraws : c.StepDraws ↔ instr.touchesScreen = true := by
      rw [instr.touchesScreen_iff, StepDraws, hs]
      constructor
      · rintro ⟨_, hok, hdraws⟩
        cases hok
        exact hdraws
      · intro hdraws
        exact ⟨instr, rfl, hdraws⟩
    rw [hs]
    refine ⟨?_, ?_⟩
    · show (c.redraw || instr.touchesScreen) = true ↔ _
      rw [Bool.or_eq_true, h.redraw_iff, hdraws]
    · intro hdown
      obtain ⟨hredraw, htouches⟩ := Bool.or_eq_false_iff.mp hdown
      show (instr.execute c.machine.advance).machine.screen = shown
      rw [Instruction.screen_execute htouches]
      exact h.screen_eq hredraw

/-- A run draws in its first step, or goes on after it and draws later. -/
theorem runDraws_succ_iff (c : Console) (n : Nat) :
    c.RunDraws (n + 1) ↔
      c.StepDraws ∨ ((∃ instr, c.step.result = .ok instr) ∧ c.step.console.RunDraws n) := by
  constructor
  · rintro ⟨k, hk, hran, hdraws⟩
    cases k with
    | zero => exact .inl hdraws
    | succ k =>
      obtain ⟨hok, hran⟩ := (stepsSucceed_succ_iff c k).mp hran
      rw [afterSteps_succ'] at hdraws
      exact .inr ⟨hok, k, Nat.lt_of_succ_lt_succ hk, hran, hdraws⟩
  · rintro (hdraws | ⟨hok, k, hk, hran, hdraws⟩)
    · exact ⟨0, Nat.succ_pos n, stepsSucceed_zero c, hdraws⟩
    · refine ⟨k + 1, Nat.succ_lt_succ hk, (stepsSucceed_succ_iff c k).mpr ⟨hok, hran⟩, ?_⟩
      rw [afterSteps_succ']
      exact hdraws

/-- What was drawn before a run stops at a fault is not forgotten. -/
theorem InTouch.run (h : InTouch since shown c) (n : Nat) :
    InTouch (since ∨ c.RunDraws n) shown (c.run n).console := by
  induction n generalizing c since with
  | zero =>
    refine h.congr (or_iff_left ?_).symm
    rintro ⟨k, hk, -⟩
    exact absurd hk (Nat.not_lt_zero k)
  | succ n ih =>
    cases hresult : c.step.result with
    | ok instr =>
      rw [run_succ_of_ok n hresult]
      refine (ih h.step).congr ?_
      rw [runDraws_succ_iff, hresult, or_assoc]
      simp only [Except.ok.injEq, exists_eq', true_and]
    | error fault =>
      rw [run_succ_of_error n hresult]
      refine h.step.congr ?_
      rw [runDraws_succ_iff, hresult]
      simp only [reduceCtorEq, exists_false, false_and, or_false]

/-- A frame is a run, and the tick leaves screen and flag. -/
theorem InTouch.runFrame (h : InTouch since shown c) (n : Nat) :
    InTouch (since ∨ c.RunDraws n) shown (c.runFrame n).console := by
  have hrun := h.run n
  unfold Console.runFrame
  dsimp only
  split
  · exact hrun.of_same rfl rfl
  · exact hrun

/-- A load that succeeds raises the flag, and one that fails changes nothing. -/
theorem InTouch.load (h : InTouch since shown c) (program : List UInt8) (entropy : Random.Key) :
    InTouch (since ∨ (c.load program entropy).result = .ok ()) shown
      (c.load program entropy).console := by
  by_cases hfits : program.length ≤ Memory.programLimit
  · rw [c.load_of_fits hfits]
    exact inTouch_of_redraw (.inr rfl) rfl
  · rw [c.load_of_large (Nat.lt_of_not_le hfits)]
    exact h.congr (or_iff_left (nomatch ·)).symm

/-- So does a load of a source. -/
theorem InTouch.loadRom (h : InTouch since shown c) (rom : Rom) (entropy : Random.Key) :
    InTouch (since ∨ (c.loadRom rom entropy).result = .ok ()) shown
      (c.loadRom rom entropy).console := by
  unfold Console.loadRom
  cases rom.contents with
  | ok program => exact h.load program entropy
  | error fault => exact h.congr (or_iff_left (nomatch ·)).symm

/-- To take the screen lowers the flag, and the host has then seen what there is. -/
theorem InTouch.takeScreen (h : InTouch since shown c) :
    InTouch (c.takeScreen.1 = none ∧ since) (c.takeScreen.1.getD shown) c.takeScreen.2 := by
  unfold Console.takeScreen
  cases hredraw : c.redraw with
  | true =>
    -- The screen is handed out and the flag goes down.
    exact ⟨iff_of_false (nomatch ·) (fun hnone => nomatch hnone.1), fun _ => rfl⟩
  | false => exact h.congr (and_iff_right rfl).symm

/-- A reset does what the load in it does. -/
theorem InTouch.reset (h : InTouch since shown c) (entropy : Random.Key) :
    InTouch (since ∨ (c.reset entropy).result = .ok ()) shown (c.reset entropy).console := by
  -- The load works on the console without its program, which shows the same.
  have hempty : InTouch since shown { c with program := [] } := h.of_same rfl rfl
  exact hempty.load c.program entropy

/-- Only the call for the screen hands it out. -/
theorem taken?_eq_none {call : Call} (h : call ≠ .takeScreen) : c.taken? call = none := by
  unfold taken?
  cases call with
  | takeScreen => exact absurd rfl h
  | tick => rfl
  | fetch =>
    simp only [perform]
    cases c.fetch <;> rfl
  | load program entropy =>
    simp only [perform, Reply.map]
    cases (c.load program entropy).result <;> rfl
  | loadRom rom entropy =>
    simp only [perform, Reply.map]
    cases (c.loadRom rom entropy).result <;> rfl
  | reset entropy =>
    simp only [perform, Reply.map]
    cases (c.reset entropy).result <;> rfl
  | step =>
    simp only [perform, Reply.map]
    cases c.step.result <;> rfl
  | runFrame n =>
    simp only [perform, Reply.map]
    cases (c.runFrame n).result <;> rfl
  | press key =>
    simp only [perform, Reply.map]
    cases (c.press key).result <;> rfl
  | release key =>
    simp only [perform, Reply.map]
    cases (c.release key).result <;> rfl

/-- One call keeps the invariant, for the two readings of it. -/
theorem InTouch.perform (h : InTouch since shown c) (call : Call) :
    InTouch (c.taken? call = none ∧ (since ∨ c.Redraws call)) ((c.taken? call).getD shown)
      (c.perform call).console := by
  by_cases htake : call = .takeScreen
  · subst htake
    exact h.takeScreen.congr (and_congr_right' (or_iff_left id).symm)
  · rw [taken?_eq_none htake]
    refine InTouch.congr ?_ (and_iff_right rfl).symm
    have hidle : InTouch (since ∨ False) shown c := h.congr (or_iff_left id).symm
    cases call with
    | takeScreen => exact absurd rfl htake
    | load program entropy => exact h.load program entropy
    | loadRom rom entropy => exact h.loadRom rom entropy
    | reset entropy => exact h.reset entropy
    | step => exact h.step
    | runFrame n => exact h.runFrame n
    | fetch => exact hidle
    | tick =>
      show InTouch (since ∨ False) shown c.tick
      exact hidle.of_same rfl rfl
    | press key =>
      show InTouch (since ∨ False) shown (c.press key).console
      exact hidle.of_same rfl (Outcome.ofPart_keeps Machine.screen fun _ => rfl)
    | release key =>
      show InTouch (since ∨ False) shown (c.release key).console
      exact hidle.of_same rfl (Outcome.ofPart_keeps Machine.screen fun _ => rfl)

/-- A history keeps the invariant, for the two readings of it. -/
theorem InTouch.after (h : InTouch since shown c) (calls : List Call) :
    InTouch (c.RedrawnSince since calls) (c.lastTaken shown calls) (c.after calls) := by
  induction calls generalizing c since shown with
  | nil => exact h
  | cons call calls ih => exact ih (h.perform call)

/-! ### What the host sees -/

/-- The host misses no change. Take any history of a new console, and ask for the screen. The
console hands it out if and only if, since it did so last, or since it was created, a program
was loaded or an instruction that draws was executed, in a step or in a frame that may have
failed later. What it hands out is the screen, and where it hands out nothing, the screen is
what it handed out last, or blank. All this is so whatever entropy there was for the console and
for each load and reset in the history. A console that is created with a program has this history
with one load before it. -/
theorem takeScreen_misses_nothing (config : Config) (entropy : Random.Key) (calls : List Call) :
    let new := ofConfig config entropy
    let c := new.after calls
    ((∃ screen, c.takeScreen.1 = some screen) ↔ new.RedrawnSince False calls) ∧
    (∀ screen, c.takeScreen.1 = some screen → screen = c.machine.screen) ∧
    (c.takeScreen.1 = none → c.machine.screen = new.lastTaken .blank calls) ∧
    ∀ program, (createWith config program entropy).console.after calls
      = new.after (.load program entropy :: calls) := by
  intro new c
  have h : InTouch (new.RedrawnSince False calls) (new.lastTaken .blank calls) c :=
    (inTouch_ofConfig config entropy).after calls
  have htake : c.takeScreen.1 = if c.redraw then some c.machine.screen else none := by
    unfold Console.takeScreen
    split <;> rfl
  rw [htake, ← h.redraw_iff]
  refine ⟨?_, ?_, ?_, fun program => rfl⟩
  · cases c.redraw <;> simp
  · cases c.redraw <;> simp
  · intro hnone
    refine h.screen_eq ?_
    cases hredraw : c.redraw with
    | false => rfl
    | true => simp [hredraw] at hnone

/-- A frame that draws a sprite of one row and then fails. -/
def drawsAndFails : List Call :=
  [.load [0xA2, 0x00, 0xD0, 0x01, 0xFF, 0xFF], .takeScreen, .runFrame 9]

/-- The host takes the screen, and then a step fails and a load fails. -/
def idlesAfter : List Call :=
  drawsAndFails ++ [.takeScreen, .step, .load (List.replicate 0xE01 0)]

/-- What was drawn before the frame failed is handed out. The failures afterwards do not ask for
the screen again, and the pixel that was drawn stays lit. -/
theorem takeScreen_misses_nothing_drawsAndFails :
    ((ofConfig {} .zero).RedrawnSince False drawsAndFails ∧
      ((ofConfig {} .zero).after drawsAndFails).takeScreen.1.isSome = true) ∧
    (¬ (ofConfig {} .zero).RedrawnSince False idlesAfter ∧
      ((ofConfig {} .zero).after idlesAfter).takeScreen.1 = none ∧
      ((ofConfig {} .zero).lastTaken .blank idlesAfter).pixel 0 0 = true) := by
  have hsome : ((ofConfig {} .zero).after drawsAndFails).takeScreen.1.isSome = true := by
    decide +kernel
  have hnone : ((ofConfig {} .zero).after idlesAfter).takeScreen.1 = none := by decide +kernel
  have hlit : ((ofConfig {} .zero).after idlesAfter).machine.screen.pixel 0 0 = true := by
    decide +kernel
  obtain ⟨hdrawn, -⟩ := takeScreen_misses_nothing {} .zero drawsAndFails
  obtain ⟨hidle, -, hscreen, -⟩ := takeScreen_misses_nothing {} .zero idlesAfter
  refine ⟨⟨hdrawn.mp (Option.isSome_iff_exists.mp hsome), hsome⟩, ?_, hnone, ?_⟩
  · intro hredrawn
    obtain ⟨screen, htake⟩ := hidle.mpr hredrawn
    rw [hnone] at htake
    exact nomatch htake
  · rw [← hscreen hnone]
    exact hlit

end Console

end Chip8
