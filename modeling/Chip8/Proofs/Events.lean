import Chip8.Proofs.Steering
import Chip8.Proofs.Stuck

/-!
# `Chip8.Proofs.Events`: what a history brought about

`Console.events` reads off a history what happened in it, the earliest first: the console
started over, a step executed an instruction, or the timers were counted down. It looks at the
results of the calls. What failed left no event. `Event.recent` is the part since the console
last started over, the latest first, which is as far back as a machine remembers.

`events_induction` is the induction over histories that is done here once: what the three kinds
of events keep, together with the events so far, a history keeps.
-/

set_option autoImplicit false

namespace Chip8

/-- Something that a history brought about. -/
inductive Event where
  /-- A load or a reset succeeded. -/
  | startedOver
  /-- A step executed an instruction, which took one machine to the other. -/
  | executed (instruction : Instruction) (before after : Machine)
  /-- The timers were counted down. -/
  | ticked
  deriving DecidableEq

namespace Event

/-- The event is the one of starting over. -/
def isStart : Event → Bool
  | .startedOver => true
  | _ => false

/-- The instruction that a step executed. -/
def instruction? : Event → Option Instruction
  | .executed instr _ _ => some instr
  | _ => none

/-- An executed instruction is among the instructions of the events. -/
theorem mem_filterMap_instruction? {events : List Event} {instr : Instruction}
    {before after : Machine} (h : .executed instr before after ∈ events) :
    instr ∈ events.filterMap instruction? :=
  List.mem_filterMap.mpr ⟨_, h, rfl⟩

/-- The events since the console last started over, the latest first. -/
def recent (events : List Event) : List Event := events.reverse.takeWhile fun e => !e.isStart

/-- Nothing is recent right after a start. -/
theorem recent_append_startedOver (events : List Event) :
    recent (events ++ [.startedOver]) = [] := by
  simp [recent, isStart]

/-- An event is the latest one once it happened, unless the console started over by it. -/
theorem recent_append {event : Event} (h : event.isStart = false) (events : List Event) :
    recent (events ++ [event]) = event :: recent events := by
  simp [recent, h]

end Event

namespace Console

/-! ### Histories -/

/-- The call starts the console over and succeeds. -/
def restarts (c : Console) (call : Call) : Bool :=
  call.startsOver && (c.perform call).result.isOk

/-- The events of up to `n` steps. -/
def runEvents (c : Console) : Nat → List Event
  | 0 => []
  | n + 1 =>
    match c.step.result with
    | .ok instr => .executed instr c.machine c.step.console.machine :: c.step.console.runEvents n
    | .error _ => []

/-- The events of a call. -/
def callEvents (c : Console) (call : Call) : List Event :=
  match call with
  | .load .. | .loadRom .. | .reset _ => if c.restarts call then [.startedOver] else []
  | .step => c.runEvents 1
  | .runFrame n => c.runEvents n ++ if (c.runFrame n).result.isOk then [.ticked] else []
  | .tick => [.ticked]
  | .fetch | .press _ | .release _ | .takeScreen => []

/-- The events of a history. -/
def events (c : Console) : List Call → List Event
  | [] => []
  | call :: calls => c.callEvents call ++ (c.perform call).console.events calls

/-! ### Calls that start over -/

variable {c : Console}

/-- A load starts the console over, or leaves it as it was. -/
theorem load_cases (c : Console) (program : List UInt8) (entropy : Random.Key) :
    ((c.load program entropy).result = .ok () ∧
      (c.load program entropy).console = loaded c.config program entropy) ∨
    ((∃ fault, (c.load program entropy).result = .error fault) ∧
      (c.load program entropy).console = c) := by
  by_cases hfits : program.length ≤ Memory.programLimit
  · rw [c.load_of_fits hfits]
    exact .inl ⟨rfl, rfl⟩
  · rw [c.load_of_large (Nat.lt_of_not_le hfits)]
    exact .inr ⟨⟨_, rfl⟩, rfl⟩

/-- So does every call that is to start it over. A reset that fails loses the program. -/
theorem restarts_cases (c : Console) {call : Call} (hcall : call.startsOver = true) :
    (c.restarts call = true ∧
      ∃ program entropy, (c.perform call).console = loaded c.config program entropy) ∨
    (c.restarts call = false ∧ ∃ program, (c.perform call).console = { c with program }) := by
  cases call with
  | load program entropy =>
    simp only [restarts, perform, Reply.map, hcall, Bool.true_and]
    rcases c.load_cases program entropy with ⟨hresult, hconsole⟩ | ⟨⟨fault, hresult⟩, hconsole⟩
    · rw [hresult]
      exact .inl ⟨rfl, program, entropy, hconsole⟩
    · rw [hresult]
      exact .inr ⟨rfl, c.program, hconsole⟩
  | loadRom rom entropy =>
    simp only [restarts, perform, Reply.map, loadRom, hcall, Bool.true_and]
    cases rom.contents with
    | error fault => exact .inr ⟨rfl, c.program, rfl⟩
    | ok program =>
      rcases c.load_cases program entropy with ⟨hresult, hconsole⟩ |
        ⟨⟨fault, hresult⟩, hconsole⟩
      · simp only [hresult]
        exact .inl ⟨rfl, program, entropy, hconsole⟩
      · simp only [hresult]
        exact .inr ⟨rfl, c.program, hconsole⟩
  | reset entropy =>
    simp only [restarts, perform, Reply.map, reset, Reply.after, hcall, Bool.true_and]
    rcases ({ c with program := [] } : Console).load_cases c.program entropy with
      ⟨hresult, hconsole⟩ | ⟨⟨fault, hresult⟩, hconsole⟩
    · rw [hresult]
      exact .inl ⟨rfl, c.program, entropy, hconsole⟩
    · rw [hresult]
      exact .inr ⟨rfl, [], hconsole⟩
  | _ => cases hcall

/-! ### Induction -/

section Induction

variable {P : List Event → Console → Prop}
  (hstart : ∀ past c program entropy, P past c →
    P (past ++ [.startedOver]) (loaded c.config program entropy))
  (hexecute : ∀ past c instr, P past c → c.step.result = .ok instr →
    P (past ++ [.executed instr c.machine c.step.console.machine]) c.step.console)
  (htick : ∀ past c, P past c → P (past ++ [.ticked]) c.tick)
  (hhost : ∀ past c keypad redraw program, P past c →
    P past { c with machine := { c.machine with keypad }, redraw, program })

include hexecute in
/-- Up to `n` steps go on with the events so far. -/
theorem run_induction {past : List Event} (h : P past c) (n : Nat) :
    P (past ++ c.runEvents n) (c.run n).console := by
  induction n generalizing past c with
  | zero =>
    rw [runEvents, List.append_nil]
    exact h
  | succ n ih =>
    cases hresult : c.step.result with
    | ok instr =>
      rw [run_succ_of_ok n hresult, runEvents, hresult]
      simpa using ih (hexecute past c instr h hresult)
    | error fault =>
      -- The run stops at the step that fails, which leaves the console alone and no event.
      rw [run_succ_of_error n hresult, runEvents, hresult, console_step_of_error hresult]
      simpa using h

include hstart hhost in
/-- A call that is to start over goes on with the events so far, whether it fails or not. -/
theorem restart_induction {past : List Event} (h : P past c) {call : Call}
    (hcall : call.startsOver = true) :
    P (past ++ if c.restarts call then [.startedOver] else []) (c.perform call).console := by
  rcases c.restarts_cases hcall with ⟨hrestarts, program, entropy, hconsole⟩ |
    ⟨hrestarts, program, hconsole⟩
  · rw [hrestarts, hconsole]
    exact hstart past c program entropy h
  · rw [hrestarts, hconsole]
    simpa using hhost past c c.machine.keypad c.redraw program h

include hstart hexecute htick hhost

/-- One call goes on with the events so far. -/
theorem perform_induction {past : List Event} (h : P past c) (call : Call) :
    P (past ++ c.callEvents call) (c.perform call).console := by
  cases call with
  | load | loadRom | reset => exact restart_induction hstart hhost h rfl
  | step =>
    show P (past ++ c.runEvents 1) c.step.console
    cases hresult : c.step.result with
    | ok instr => simpa [runEvents, hresult] using hexecute past c instr h hresult
    | error fault =>
      rw [console_step_of_error hresult]
      simpa [runEvents, hresult] using h
  | runFrame n =>
    show P (past ++ (c.runEvents n ++ _)) (c.runFrame n).console
    -- A frame is a run, and then a tick if every step of it succeeded.
    have hrun := run_induction hexecute h n
    rw [← List.append_assoc, runFrame]
    cases (c.run n).fault with
    | none => exact htick _ _ hrun
    | some fault => simpa [Except.isOk, Except.toBool] using hrun
  | tick => exact htick past c h
  | fetch =>
    show P (past ++ []) c
    rw [List.append_nil]
    exact h
  | press key =>
    obtain ⟨keypad, hm⟩ := c.machine.press_eq key
    simpa [callEvents, perform, press, ofOutcome, Reply.map, hm]
      using hhost past c keypad c.redraw c.program h
  | release key =>
    obtain ⟨keypad, hm⟩ := c.machine.release_eq key
    simpa [callEvents, perform, release, ofOutcome, Reply.map, hm]
      using hhost past c keypad c.redraw c.program h
  | takeScreen =>
    show P (past ++ []) c.takeScreen.2
    rw [List.append_nil, takeScreen]
    split
    · exact hhost past c c.machine.keypad false c.program h
    · exact h

/-- A history goes on with the events so far. -/
theorem events_induction_from {past : List Event} (h : P past c) (calls : List Call) :
    P (past ++ c.events calls) (c.after calls) := by
  induction calls generalizing past c with
  | nil =>
    rw [events, List.append_nil]
    exact h
  | cons call calls ih =>
    rw [events, ← List.append_assoc]
    exact ih (perform_induction hstart hexecute htick hhost h call)

/-- What starting over, an executed instruction and a tick keep, together with the events so far,
and what does not depend on keys, redraw and program, a history keeps. -/
theorem events_induction (h : P [] c) (calls : List Call) :
    P (c.events calls) (c.after calls) :=
  events_induction_from hstart hexecute htick hhost h calls

end Induction

/-- What holds of every step that succeeds holds of every step in a history. -/
theorem forall_executed_mem_events {Q : Instruction → Machine → Machine → Prop}
    (h : ∀ (c : Console) (instr : Instruction), c.step.result = .ok instr →
      Q instr c.machine c.step.console.machine) (c : Console) (calls : List Call) :
    ∀ instr before after, .executed instr before after ∈ c.events calls →
      Q instr before after := by
  refine events_induction (P := fun past _ => ∀ instr before after,
    .executed instr before after ∈ past → Q instr before after) ?_ ?_ ?_ ?_ ?_ calls
  · intro past c program entropy ih instr before after hmem
    exact ih instr before after (by simpa using hmem)
  · intro past c instr ih hresult instr' before after hmem
    rcases List.mem_append.mp hmem with hpast | hlast
    · exact ih instr' before after hpast
    · cases List.mem_singleton.mp hlast
      exact h c instr hresult
  · intro past c ih instr before after hmem
    exact ih instr before after (by simpa using hmem)
  · intro past c keypad redraw program ih
    exact ih
  · intro instr before after hmem
    exact nomatch hmem

/-! ### Histories in parts -/

/-- The events of a history are those of its first part and then those of its second. -/
theorem events_append (c : Console) (first second : List Call) :
    c.events (first ++ second) = c.events first ++ (c.after first).events second := by
  induction first generalizing c with
  | nil => rfl
  | cons call calls ih =>
    rw [List.cons_append, events, events, ih, List.append_assoc]
    rfl

/-- Where a step stands in the events of a history. -/
theorem events_append_step {c : Console} {calls : List Call} {instr : Instruction}
    (h : (c.after calls).step.result = .ok instr) (rest : List Call) :
    c.events (calls ++ .step :: rest) = c.events calls ++
      .executed instr (c.after calls).machine (c.after calls).step.console.machine ::
        (c.after calls).step.console.events rest := by
  rw [events_append, events]
  show _ ++ ((c.after calls).runEvents 1 ++ (c.after calls).step.console.events rest) = _
  simp [runEvents, h]

end Console

end Chip8
