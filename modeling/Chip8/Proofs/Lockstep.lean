import Chip8.Proofs.Entropy
import Chip8.Proofs.Reads

/-!
# `Chip8.Proofs.Lockstep`: two histories side by side

Two consoles in lockstep take the same calls to the same results, although their machines need not
be equal. `Machine.Lockstep` says of a relation between machines what this takes: the two agree in
what decides how a step ends and in what the host sees, and the relation outlasts what the host
does. Instructions are the other half. `Instruction.Keeps` says that an instruction preserves the
relation, and it is asked of the instructions that are executed, and of no other.

`Alike.step`, `Alike.run` and `Alike.perform` lead from the step to the call. `Alike.after` is the
statement about histories. The two may differ in calls that are not shown and that the relation does
not notice, wherever these stand. They may also differ in entropy that is not heard
(`answers_heard`).

The relations that this is for hide some components of the machine (`Machine.AgreeExcept`). An
instruction that reads none of the hidden components keeps them (`keeps_of_reads`), and a call that
changes nothing but hidden components goes unnoticed (`Alike.after_of_unseen`).
-/

set_option autoImplicit false

namespace Chip8

open Machine (Component)

/-- What a relation between machines needs for two consoles with the given configurations to answer
alike. -/
structure Machine.Lockstep (R : Machine → Machine → Prop) (config config' : Config) : Prop where
  memory_eq : ∀ {m n}, R m n → m.memory = n.memory
  pc_eq : ∀ {m n}, R m n → m.pc = n.pc
  index_eq : ∀ {m n}, R m n → m.index = n.index
  calls_eq : ∀ {m n}, R m n → m.calls = n.calls
  screen_eq : ∀ {m n}, R m n → m.screen = n.screen
  tick : ∀ {m n}, R m n → R m.tick n.tick
  press : ∀ {m n}, R m n → ∀ k, R (m.press k).machine (n.press k).machine
  release : ∀ {m n}, R m n → ∀ k, R (m.release k).machine (n.release k).machine
  loaded : ∀ program entropy, R (Console.loaded config program entropy).machine
    (Console.loaded config' program entropy).machine

/-- The instruction takes related machines to related machines. -/
def Instruction.Keeps (R : Machine → Machine → Prop) (instr : Instruction) : Prop :=
  ∀ m n, R m n → R (instr.execute m.advance).machine (instr.execute n.advance).machine

/-- Whether the pad has a key does not depend on the machine. -/
theorem Machine.fault_press_eq (m n : Machine) (k : UInt8) :
    (m.press k).fault = (n.press k).fault := by
  unfold press Keypad.press Keypad.put
  split <;> rfl

/-- So it is for the release of a key. -/
theorem Machine.fault_release_eq (m n : Machine) (k : UInt8) :
    (m.release k).fault = (n.release k).fault := by
  unfold release Keypad.release Keypad.put
  split <;> rfl

namespace Console

/-- Two consoles with the given configurations that agree but for their machines, which are
related. -/
structure Alike (R : Machine → Machine → Prop) (config config' : Config) (c d : Console) :
    Prop where
  machine : R c.machine d.machine
  redraw : c.redraw = d.redraw
  program : c.program = d.program
  config_left : c.config = config
  config_right : d.config = config'

/-- New consoles are alike if their fresh machines are related. -/
theorem alike_ofConfig {R : Machine → Machine → Prop} {config config' : Config}
    {entropy entropy' : Random.Key}
    (h : R (Machine.fresh config entropy) (Machine.fresh config' entropy')) :
    Alike R config config' (ofConfig config entropy) (ofConfig config' entropy') :=
  ⟨h, rfl, rfl, rfl, rfl⟩

section

variable {R : Machine → Machine → Prop} {config config' : Config}
  (hR : Machine.Lockstep R config config') {c d : Console}

/-- The second console is the first with another configuration and its own machine. -/
theorem Alike.eq (h : Alike R config config' c d) {m : Machine} (hm : d.machine = m) :
    d = { c with config := config', machine := m } :=
  Console.ext hm h.redraw.symm h.config_right h.program.symm

/-- With one configuration, it is the first with its own machine. -/
theorem Alike.eq_of_config (h : Alike R config config c d) {m : Machine} (hm : d.machine = m) :
    d = { c with machine := m } :=
  Console.ext hm h.redraw.symm (h.config_right.trans h.config_left.symm) h.program.symm

/-! ### Steps and frames -/

include hR

/-- Steps end alike, since memory, program counter, index and open calls decide how. -/
theorem Alike.result_step (h : Alike R config config' c d) : c.step.result = d.step.result := by
  have hmemory := hR.memory_eq h.machine
  have hpc := hR.pc_eq h.machine
  have hindex := hR.index_eq h.machine
  have hcalls := hR.calls_eq h.machine
  cases hc : c.step.result with
  | error fault =>
    exact (result_step_congr hc hmemory.symm hpc.symm hindex.symm hcalls.symm).symm
  | ok instr =>
    cases hd : d.step.result with
    | error fault => exact nomatch hc.symm.trans (result_step_congr hd hmemory hpc hindex hcalls)
    | ok instr' =>
      -- Both executed what stands at the program counter.
      obtain ⟨opcode, hfetch, hdecode, -⟩ := step_of_ok hc
      obtain ⟨opcode', hfetch', hdecode', -⟩ := step_of_ok hd
      have hsame : c.fetch = d.fetch := by simp only [fetch, Machine.fetch, hmemory, hpc]
      rw [hsame, hfetch'] at hfetch
      cases hfetch
      rw [Option.some.inj (hdecode.symm.trans hdecode')]

/-- A step keeps the consoles alike, if its instruction keeps the relation. -/
theorem Alike.step (h : Alike R config config' c d)
    (hkeeps : ∀ instr, c.step.result = .ok instr → instr.Keeps R) :
    Alike R config config' c.step.console d.step.console := by
  have hresult := h.result_step hR
  cases hc : c.step.result with
  | error fault =>
    rw [console_step_of_error hc, console_step_of_error (hresult.symm.trans hc)]
    exact h
  | ok instr =>
    rw [console_step_of_ok hc, console_step_of_ok (hresult.symm.trans hc)]
    exact ⟨hkeeps instr hc _ _ h.machine, congrArg (· || instr.touchesScreen) h.redraw, h.program,
      h.config_left, h.config_right⟩

/-- So does a run, and it takes the same steps on both. -/
theorem Alike.run (h : Alike R config config' c d) (n : Nat)
    (hkeeps : ∀ instr before after, .executed instr before after ∈ c.runEvents n →
      instr.Keeps R) :
    (c.run n).executed = (d.run n).executed ∧ (c.run n).fault = (d.run n).fault ∧
      Alike R config config' (c.run n).console (d.run n).console := by
  induction n generalizing c d with
  | zero => exact ⟨rfl, rfl, h⟩
  | succ n ih =>
    have hresult := h.result_step hR
    cases hc : c.step.result with
    | error fault =>
      rw [run_succ_of_error n hc, run_succ_of_error n (hresult.symm.trans hc)]
      exact ⟨rfl, rfl, h.step hR fun instr hok => nomatch hc.symm.trans hok⟩
    | ok instr =>
      rw [run_succ_of_ok n hc, run_succ_of_ok n (hresult.symm.trans hc)]
      simp only [runEvents, hc, List.mem_cons] at hkeeps
      have hstep : Alike R config config' c.step.console d.step.console := by
        refine h.step hR fun instr' hok => ?_
        rw [hc] at hok
        cases hok
        exact hkeeps instr _ _ (.inl rfl)
      obtain ⟨hexecuted, hfault, hconsole⟩ :=
        ih hstep fun instr' before after hmem => hkeeps instr' before after (.inr hmem)
      exact ⟨by rw [hexecuted], hfault, hconsole⟩

/-- So does a frame. -/
theorem Alike.runFrame (h : Alike R config config' c d) (n : Nat)
    (hkeeps : ∀ instr before after, .executed instr before after ∈ c.runEvents n →
      instr.Keeps R) :
    (c.runFrame n).result = (d.runFrame n).result ∧
      Alike R config config' (c.runFrame n).console (d.runFrame n).console := by
  obtain ⟨hexecuted, hfault, hconsole⟩ := h.run hR n hkeeps
  -- So the frames are cut short on both consoles or on none, and both are ticked or none is.
  simp only [Console.runFrame, Run.touchedScreen, hexecuted, hfault]
  cases (d.run n).fault with
  | some fault => exact ⟨rfl, hconsole⟩
  | none =>
    exact ⟨rfl, hR.tick hconsole.machine, hconsole.redraw, hconsole.program,
      hconsole.config_left, hconsole.config_right⟩

/-! ### Calls -/

/-- A load takes place on both or on none. -/
theorem Alike.load (h : Alike R config config' c d) (program : List UInt8)
    (entropy : Random.Key) :
    (c.load program entropy).result = (d.load program entropy).result ∧
      Alike R config config' (c.load program entropy).console
        (d.load program entropy).console := by
  -- The size of the program decides, and neither console has a part in it.
  by_cases hfits : program.length ≤ Memory.programLimit
  · rw [c.load_of_fits hfits, d.load_of_fits hfits, h.config_left, h.config_right]
    exact ⟨rfl, hR.loaded program entropy, rfl, rfl, rfl, rfl⟩
  · rw [c.load_of_large (Nat.lt_of_not_le hfits), d.load_of_large (Nat.lt_of_not_le hfits)]
    exact ⟨rfl, h⟩

omit hR in
/-- The two answer alike to an operation on their machines that ends alike. -/
theorem Alike.ofOutcome (h : Alike R config config' c d) {outcome outcome' : Outcome}
    (hfault : outcome.fault = outcome'.fault) (hmachine : R outcome.machine outcome'.machine) :
    (c.ofOutcome outcome).result = (d.ofOutcome outcome').result ∧
      Alike R config config' (c.ofOutcome outcome).console (d.ofOutcome outcome').console := by
  unfold Console.ofOutcome
  rw [hfault]
  exact ⟨rfl, hmachine, h.redraw, h.program, h.config_left, h.config_right⟩

/-- The same screen is handed out by both, or none by either. -/
theorem Alike.takeScreen (h : Alike R config config' c d) :
    c.takeScreen.1 = d.takeScreen.1 ∧ Alike R config config' c.takeScreen.2 d.takeScreen.2 := by
  unfold Console.takeScreen
  rw [← h.redraw, hR.screen_eq h.machine]
  split
  · exact ⟨rfl, h.machine, rfl, h.program, h.config_left, h.config_right⟩
  · exact ⟨rfl, h⟩

/-- A call has the same result on both, if the instructions that it executes keep the relation. -/
theorem Alike.perform (h : Alike R config config' c d) {call : Call}
    (hkeeps : ∀ instr before after, .executed instr before after ∈ c.callEvents call →
      instr.Keeps R) :
    (c.perform call).result = (d.perform call).result ∧
      Alike R config config' (c.perform call).console (d.perform call).console := by
  cases call with
  | load program entropy =>
    obtain ⟨hresult, hconsole⟩ := h.load hR program entropy
    exact ⟨congrArg (Except.map _) hresult, hconsole⟩
  | loadRom rom entropy =>
    simp only [Console.perform, loadRom]
    cases rom.contents with
    | error fault => exact ⟨rfl, h⟩
    | ok program =>
      obtain ⟨hresult, hconsole⟩ := h.load hR program entropy
      exact ⟨congrArg (Except.map _) hresult, hconsole⟩
  | reset entropy =>
    have hempty : Alike R config config' { c with program := [] } { d with program := [] } :=
      ⟨h.machine, h.redraw, rfl, h.config_left, h.config_right⟩
    obtain ⟨hresult, hconsole⟩ := hempty.load hR c.program entropy
    simp only [Console.perform, reset, ← h.program]
    exact ⟨congrArg (Except.map _) hresult, hconsole⟩
  | fetch =>
    have hfetch : c.fetch = d.fetch := by
      simp only [fetch, Machine.fetch, hR.memory_eq h.machine, hR.pc_eq h.machine]
    exact ⟨congrArg (Except.map _) hfetch, h⟩
  | step =>
    refine ⟨congrArg (Except.map _) (h.result_step hR), h.step hR fun instr hok => ?_⟩
    exact hkeeps instr c.machine c.step.console.machine (by simp [callEvents, runEvents, hok])
  | runFrame n =>
    obtain ⟨hresult, hconsole⟩ := h.runFrame hR n fun instr before after hmem =>
      hkeeps instr before after (List.mem_append_left _ hmem)
    exact ⟨congrArg (Except.map _) hresult, hconsole⟩
  | tick =>
    exact ⟨rfl, hR.tick h.machine, h.redraw, h.program, h.config_left, h.config_right⟩
  | press key =>
    obtain ⟨hresult, hconsole⟩ :=
      h.ofOutcome (Machine.fault_press_eq _ _ key) (hR.press h.machine key)
    exact ⟨congrArg (Except.map _) hresult, hconsole⟩
  | release key =>
    obtain ⟨hresult, hconsole⟩ :=
      h.ofOutcome (Machine.fault_release_eq _ _ key) (hR.release h.machine key)
    exact ⟨congrArg (Except.map _) hresult, hconsole⟩
  | takeScreen =>
    obtain ⟨hscreen, hconsole⟩ := h.takeScreen hR
    exact ⟨congrArg (fun screen => Except.ok (Answer.screen screen)) hscreen, hconsole⟩

end

/-! ### Histories -/

/-- The results of those calls of a history that are shown. -/
def answers (c : Console) (shown : Call → Bool) : List Call → List (Except Fault Answer)
  | [] => []
  | call :: calls =>
    (if shown call then [(c.perform call).result] else [])
      ++ (c.perform call).console.answers shown calls

/-- The answers to a history are those to its first part and then those to its second. -/
theorem answers_append (c : Console) (shown : Call → Bool) (first second : List Call) :
    c.answers shown (first ++ second)
      = c.answers shown first ++ (c.after first).answers shown second := by
  induction first generalizing c with
  | nil => rfl
  | cons call calls ih =>
    rw [List.cons_append, answers, answers, ih, List.append_assoc]
    rfl

/-- The answers to a history are those to what is heard of it. -/
theorem answers_heard {c : Console} {config : Config} (h : c.config = config)
    {shown : Call → Bool} (hshown : ∀ call, shown call.bare = shown call) (calls : List Call) :
    c.answers shown (calls.map (Call.heard config)) = c.answers shown calls := by
  induction calls generalizing c with
  | nil => rfl
  | cons call calls ih =>
    rw [List.map_cons, answers, answers, perform_heard h, Call.apply_heard hshown,
      ih ((c.config_perform call).trans h)]

section

variable {R : Machine → Machine → Prop} {config config' : Config} {shown : Call → Bool}
  {c d : Console}

/-- Calls that are neither shown nor noticed have no answers, and the consoles stay alike. -/
theorem Alike.after_of_not_shown
    (hright : ∀ (c d : Console) (call : Call), shown call = false →
      Alike R config config' c d → Alike R config config' c (d.perform call).console)
    (h : Alike R config config' c d) {calls : List Call}
    (hcalls : ∀ call ∈ calls, shown call = false) :
    d.answers shown calls = [] ∧ Alike R config config' c (d.after calls) := by
  induction calls generalizing d with
  | nil => exact ⟨rfl, h⟩
  | cons call calls ih =>
    have hcall := hcalls call List.mem_cons_self
    obtain ⟨hanswers, hconsole⟩ := ih (hright c d call hcall h) fun call' hmem =>
      hcalls call' (List.mem_cons_of_mem _ hmem)
    exact ⟨by simp [answers, hcall, hanswers], hconsole⟩

/-- Two histories that are equal but for calls that are neither shown nor noticed have the same
answers and lead to consoles that are alike, if the instructions that the first executes keep the
relation. -/
theorem Alike.after (hR : Machine.Lockstep R config config')
    (hleft : ∀ (c d : Console) (call : Call), shown call = false →
      Alike R config config' c d → Alike R config config' (c.perform call).console d)
    (hright : ∀ (c d : Console) (call : Call), shown call = false →
      Alike R config config' c d → Alike R config config' c (d.perform call).console)
    (h : Alike R config config' c d) {calls calls' : List Call}
    (hsame : calls.filter shown = calls'.filter shown)
    (hkeeps : ∀ instr before after, .executed instr before after ∈ c.events calls →
      instr.Keeps R) :
    c.answers shown calls = d.answers shown calls' ∧
      Alike R config config' (c.after calls) (d.after calls') := by
  -- By induction on the first history. Each of its shown calls takes up a part of the second.
  induction calls generalizing c d calls' with
  | nil =>
    have hcalls : ∀ call ∈ calls', shown call = false := by
      simpa [List.filter_eq_nil_iff] using hsame.symm
    obtain ⟨hanswers, hconsole⟩ := h.after_of_not_shown hright hcalls
    exact ⟨hanswers.symm, hconsole⟩
  | cons call calls ih =>
    have hrest : ∀ instr before after,
        .executed instr before after ∈ (c.perform call).console.events calls → instr.Keeps R :=
      fun instr before after hmem => hkeeps instr before after (List.mem_append_right _ hmem)
    by_cases hcall : shown call = true
    · -- The second history has the same call, behind some that are not shown.
      rw [List.filter_cons, if_pos hcall, eq_comm, List.filter_eq_cons_iff] at hsame
      obtain ⟨skipped, rest, rfl, hskipped, -, hsame⟩ := hsame
      obtain ⟨hnone, hconsole⟩ := h.after_of_not_shown hright fun call' hmem =>
        Bool.eq_false_iff.mpr (hskipped call' hmem)
      obtain ⟨hresult, hperform⟩ := hconsole.perform hR fun instr before after hmem =>
        hkeeps instr before after (List.mem_append_left _ hmem)
      obtain ⟨hanswers, hafter⟩ := ih hperform hsame.symm hrest
      refine ⟨?_, ?_⟩
      · rw [answers_append, hnone, List.nil_append, answers, answers, hresult, hanswers]
      · rw [after_append]
        exact hafter
    · have hhidden : shown call = false := Bool.eq_false_iff.mpr hcall
      rw [List.filter_cons, if_neg hcall] at hsame
      obtain ⟨hanswers, hafter⟩ := ih (hleft c d call hhidden h) hsame hrest
      refine ⟨?_, hafter⟩
      rw [answers, hhidden, ← hanswers]
      rfl

/-- So it is for two histories of which the same is heard but for such calls. -/
theorem Alike.after_of_heard (hR : Machine.Lockstep R config config')
    (hheard : Call.heard config' = Call.heard config)
    (hshown : ∀ call, shown call.bare = shown call)
    (hleft : ∀ (c d : Console) (call : Call), shown call = false →
      Alike R config config' c d → Alike R config config' (c.perform call).console d)
    (hright : ∀ (c d : Console) (call : Call), shown call = false →
      Alike R config config' c d → Alike R config config' c (d.perform call).console)
    (h : Alike R config config' c d) {calls calls' : List Call}
    (hsame : (calls.filter shown).map (Call.heard config)
      = (calls'.filter shown).map (Call.heard config))
    (hkeeps : ∀ instr before after, .executed instr before after ∈ c.events calls →
      instr.Keeps R) :
    c.answers shown calls = d.answers shown calls' ∧
      Alike R config config' (c.after calls) (d.after calls') := by
  -- What is heard of the two histories is equal but for the calls that are not shown.
  rw [← Call.filter_map_heard hshown, ← Call.filter_map_heard hshown] at hsame
  rw [← events_heard h.config_left] at hkeeps
  obtain ⟨hanswers, hafter⟩ := h.after hR hleft hright hsame hkeeps
  rw [answers_heard h.config_left hshown, ← hheard, answers_heard h.config_right hshown] at hanswers
  rw [after_heard h.config_left, ← hheard, after_heard h.config_right] at hafter
  exact ⟨hanswers, hafter⟩

/-- Two histories of which the same is heard have the same answers, all of them. -/
theorem Alike.after_of_same (hR : Machine.Lockstep R config config')
    (hheard : Call.heard config' = Call.heard config)
    (h : Alike R config config' c d) {calls calls' : List Call}
    (hsame : calls.map (Call.heard config) = calls'.map (Call.heard config))
    (hkeeps : ∀ instr before after, .executed instr before after ∈ c.events calls →
      instr.Keeps R) :
    c.answers (fun _ => true) calls = d.answers (fun _ => true) calls' ∧
      Alike R config config' (c.after calls) (d.after calls') := by
  have hall (calls : List Call) : calls.filter (fun _ => true) = calls :=
    List.filter_eq_self.mpr fun _ _ => rfl
  exact h.after_of_heard hR hheard (fun _ => rfl) (by simp) (by simp)
    (by rw [hall, hall, hsame]) hkeeps

end

end Console

/-! ### Relations that hide components -/

namespace Machine

variable {hidden : List Component} {m n : Machine}

/-- Two machines agree in every component but the hidden ones. -/
def AgreeExcept (hidden : List Component) (m n : Machine) : Prop := ∀ p, p ∉ hidden → p.Same m n

/-- The first machine with some components put in from the second. -/
def replace (hidden : List Component) (m n : Machine) : Machine where
  registers := if .registers ∈ hidden then n.registers else m.registers
  index := if .index ∈ hidden then n.index else m.index
  pc := if .pc ∈ hidden then n.pc else m.pc
  calls := if .calls ∈ hidden then n.calls else m.calls
  delay := if .delay ∈ hidden then n.delay else m.delay
  sound := if .sound ∈ hidden then n.sound else m.sound
  memory := if .memory ∈ hidden then n.memory else m.memory
  keypad := if .keypad ∈ hidden then n.keypad else m.keypad
  screen := if .screen ∈ hidden then n.screen else m.screen
  random := if .random ∈ hidden then n.random else m.random
  dialect := if .dialect ∈ hidden then n.dialect else m.dialect

/-- Machines that agree in every component are equal. -/
theorem eq_of_same (h : ∀ p : Component, p.Same m n) : m = n :=
  Machine.ext (h .registers) (h .index) (h .pc) (h .calls) (h .delay) (h .sound) (h .memory)
    (h .keypad) (h .screen) (h .random) (h .dialect)

/-- Of two machines that agree but for hidden components, the second is the first with these put
in. -/
theorem AgreeExcept.eq_replace (h : AgreeExcept hidden m n) : n = m.replace hidden n := by
  refine eq_of_same fun p => ?_
  have hsame := h p
  cases p <;> simp only [Component.Same, replace] at hsame ⊢ <;> split <;> simp_all

/-- A tick changes a component in the same way on two machines that agree in it. -/
theorem Component.Same.tick {p : Component} (h : p.Same m n) : p.Same m.tick n.tick := by
  cases p <;> simp_all [Component.Same, Machine.tick]

/-- So does moving on. -/
theorem Component.Same.advance {p : Component} (h : p.Same m n) : p.Same m.advance n.advance := by
  cases p <;> simp_all [Component.Same, Machine.advance]

/-- An operation on the keypad changes it in the same way on two machines that agree in it. -/
theorem Component.Same.ofKeypad {p : Component} (h : p.Same m n)
    (f : Keypad → Except Fault Keypad) :
    p.Same (Outcome.ofPart m (f m.keypad) fun keypad => { m with keypad }).machine
      (Outcome.ofPart n (f n.keypad) fun keypad => { n with keypad }).machine := by
  -- The keypads are equal and change alike. Nothing else changes on either machine.
  by_cases hp : p = .keypad
  · subst hp
    rw [show m.keypad = n.keypad from h]
    cases f n.keypad with
    | error fault => exact h
    | ok keypad => rfl
  · have hkept (m : Machine) :
        p.Same (Outcome.ofPart m (f m.keypad) fun keypad => { m with keypad }).machine m := by
      refine Outcome.machine_ofPart (P := (p.Same · m)) (p.same_refl m) fun keypad => ?_
      cases p <;> simp_all [Component.Same]
    exact ((hkept m).trans h).trans (hkept n).symm

/-- Machines that agree in everything but components that neither decide how a step ends nor are
seen by the host are in lockstep, if a fresh machine of one configuration and one of the other
agree so too. -/
theorem lockstep_agreeExcept {config config' : Config}
    (hvisible : ∀ p ∈ [Component.memory, .pc, .index, .calls, .screen], p ∉ hidden)
    (hfresh : ∀ entropy, AgreeExcept hidden (fresh config entropy) (fresh config' entropy)) :
    Lockstep (AgreeExcept hidden) config config' where
  memory_eq h := h .memory (hvisible _ (by simp))
  pc_eq h := h .pc (hvisible _ (by simp))
  index_eq h := h .index (hvisible _ (by simp))
  calls_eq h := h .calls (hvisible _ (by simp))
  screen_eq h := h .screen (hvisible _ (by simp))
  tick h p hp := (h p hp).tick
  press h k p hp := (h p hp).ofKeypad (·.press k)
  release h k p hp := (h p hp).ofKeypad (·.release k)
  loaded program entropy p hp := by
    have hsame := hfresh entropy p hp
    cases p <;> simp_all [Component.Same, Console.loaded]

/-- With one configuration, the fresh machines are equal. -/
theorem lockstep_self (config : Config)
    (hvisible : ∀ p ∈ [Component.memory, .pc, .index, .calls, .screen], p ∉ hidden) :
    Lockstep (AgreeExcept hidden) config config :=
  lockstep_agreeExcept hvisible fun _ p _ => p.same_refl _

end Machine

/-- A console is alike to itself with another machine, if the machines agree but for what is
hidden. -/
theorem Console.alike_of_agreeExcept {hidden : List Component} (c : Console) {m : Machine}
    (h : c.machine.AgreeExcept hidden m) :
    Alike (Machine.AgreeExcept hidden) c.config c.config c { c with machine := m } :=
  ⟨h, rfl, rfl, rfl, rfl⟩

/-- An instruction that reads nothing hidden keeps machines that agree in everything else. -/
theorem Instruction.keeps_of_reads {hidden : List Component} {instr : Instruction}
    (hreads : ∀ q ∈ instr.reads, q ∉ hidden) : instr.Keeps (Machine.AgreeExcept hidden) := by
  intro m n h p hp
  exact same_execute_of_reads (fun q hq => (h q (hreads q hq)).advance) (h p hp).advance

/-- Two histories of which the same is heard but for calls which change hidden components at most
have the same answers, apart from those of these calls, if the first executes no instruction that
reads a hidden component. -/
theorem Console.Alike.after_of_unseen {hidden : List Component} {shown : Call → Bool}
    {config : Config} {c d : Console}
    (hvisible : ∀ p ∈ [Component.memory, .pc, .index, .calls, .screen], p ∉ hidden)
    (hshown : ∀ call, shown call.bare = shown call)
    (hunseen : ∀ (c : Console) (call : Call), shown call = false →
      ∃ m, m.AgreeExcept hidden c.machine ∧ (c.perform call).console = { c with machine := m })
    (h : Alike (Machine.AgreeExcept hidden) config config c d) {calls calls' : List Call}
    (hsame : (calls.filter shown).map (Call.heard config)
      = (calls'.filter shown).map (Call.heard config))
    (hreads : ∀ instr before after, .executed instr before after ∈ c.events calls →
      ∀ q ∈ instr.reads, q ∉ hidden) :
    c.answers shown calls = d.answers shown calls' ∧
      Alike (Machine.AgreeExcept hidden) config config (c.after calls) (d.after calls') := by
  have hleft (c d : Console) (call : Call) (hcall : shown call = false)
      (h : Alike (Machine.AgreeExcept hidden) config config c d) :
      Alike (Machine.AgreeExcept hidden) config config (c.perform call).console d := by
    obtain ⟨m, hm, hperform⟩ := hunseen c call hcall
    rw [hperform]
    exact ⟨fun p hp => (hm p hp).trans (h.machine p hp), h.redraw, h.program, h.config_left,
      h.config_right⟩
  have hright (c d : Console) (call : Call) (hcall : shown call = false)
      (h : Alike (Machine.AgreeExcept hidden) config config c d) :
      Alike (Machine.AgreeExcept hidden) config config c (d.perform call).console := by
    obtain ⟨m, hm, hperform⟩ := hunseen d call hcall
    rw [hperform]
    exact ⟨fun p hp => (h.machine p hp).trans (hm p hp).symm, h.redraw, h.program, h.config_left,
      h.config_right⟩
  exact h.after_of_heard (Machine.lockstep_self config hvisible) rfl hshown hleft hright hsame
    fun instr before after hmem => Instruction.keeps_of_reads (hreads instr before after hmem)

end Chip8
