import Chip8.Proofs.History
import Chip8.Proofs.Load
import Chip8.Proofs.Step

/-!
# `Chip8.Proofs.Reset`: loads and resets erase the past

A history is a list of calls. `Console.lastLoaded` reads off a history which program was
loaded last. It looks at what each call asks to load and at whether the call succeeded, not
at what the console says that it kept.

`Retains config program c` is the invariant: the console holds its configuration and the
program that was loaded last, and that program fits. `retains_perform` keeps it over one
call and `retains_after` over a history. `reset_and_load_forget` follows, since a load
builds everything but the configuration anew.
-/

set_option autoImplicit false

namespace Chip8

/-- The program that a call asks to load. -/
def Call.program? : Call → Option (List UInt8)
  | .load program _ => some program
  | .loadRom rom _ => rom.contents.toOption
  | _ => none

namespace Console

/-- The program that a call loads into the console, if it asks for one and succeeds. -/
def loads? (c : Console) (call : Call) : Option (List UInt8) :=
  match (c.perform call).result with
  | .ok _ => call.program?
  | .error _ => none

/-- The program of the last call that loaded one, or else the one given. -/
def lastLoaded (c : Console) (program : List UInt8) : List Call → List UInt8
  | [] => program
  | call :: calls =>
    lastLoaded (c.perform call).console ((c.loads? call).getD program) calls

/-! ### The invariant -/

/-- The console holds a configuration, and a program that fits. -/
structure Retains (config : Config) (program : List UInt8) (c : Console) : Prop where
  config_eq : c.config = config
  program_eq : c.program = program
  fits : program.length ≤ Memory.programLimit

/-- A new console retains the empty program. -/
theorem retains_ofConfig (config : Config) (entropy : Random.Key) :
    Retains config [] (ofConfig config entropy) :=
  ⟨rfl, rfl, Nat.zero_le _⟩

/-- A console that was just loaded retains its program. -/
theorem retains_loaded (config : Config) {program : List UInt8}
    (h : program.length ≤ Memory.programLimit) (entropy : Random.Key) :
    Retains config program (loaded config program entropy) :=
  ⟨rfl, rfl, h⟩

variable {config : Config} {program : List UInt8} {c : Console}

/-- The invariant reads the configuration and the program, and nothing else. -/
theorem Retains.of_same (h : Retains config program c) {c' : Console}
    (hconfig : c'.config = c.config) (hprogram : c'.program = c.program) :
    Retains config program c' :=
  ⟨hconfig.trans h.config_eq, hprogram.trans h.program_eq, h.fits⟩

/-- A step keeps the invariant, whichever way it ends. -/
theorem Retains.step (h : Retains config program c) : Retains config program c.step.console := by
  rcases c.step_cases with ⟨_, _, hs⟩ | ⟨_, _, _, hs⟩ | ⟨_, _, _, _, _, _, hs⟩ | ⟨_, _, _, _, _, hs⟩
  -- A failure leaves the console, and an execution puts in a machine and raises the redraw.
  all_goals
    rw [hs]
    exact h.of_same rfl rfl

/-- To take the screen lowers the redraw at most. -/
theorem Retains.takeScreen (h : Retains config program c) :
    Retains config program c.takeScreen.2 := by
  unfold Console.takeScreen
  split
  · exact h.of_same rfl rfl
  · exact h

/-- After a load, the console retains the program if the load succeeded, and otherwise the
program that it retained before. -/
theorem Retains.load (h : Retains config program c) (q : List UInt8) (entropy : Random.Key) :
    Retains config ((c.loads? (.load q entropy)).getD program) (c.load q entropy).console := by
  by_cases hq : q.length ≤ Memory.programLimit
  · have hload := c.load_of_fits hq entropy
    have hloads : c.loads? (.load q entropy) = some q := by
      simp only [loads?, perform, hload]
      rfl
    rw [hloads, hload, h.config_eq]
    exact retains_loaded config hq entropy
  · have hload := c.load_of_large (Nat.lt_of_not_le hq) entropy
    have hloads : c.loads? (.load q entropy) = none := by
      simp only [loads?, perform, hload]
      rfl
    rw [hloads, hload]
    exact h

/-- A call that asks for no program loads none. -/
theorem loads?_eq_none {call : Call} (h : call.program? = none) : c.loads? call = none := by
  unfold loads?
  split
  · exact h
  · rfl

/-- A source that yields a program loads what loading that program loads. -/
theorem loads?_loadRom {rom : Rom} {q : List UInt8} (h : rom.contents = .ok q)
    (entropy : Random.Key) :
    c.loads? (.loadRom rom entropy) = c.loads? (.load q entropy) := by
  simp only [loads?, perform, loadRom, Call.program?, h]
  rfl

/-- A reset of a console that retains a program gives the console of loading it. -/
theorem Retains.reset_eq (h : Retains config program c) (entropy : Random.Key) :
    c.reset entropy
      = ⟨.ok (), loaded config program entropy, [.resetting, .loaded program.length]⟩ := by
  -- The load works on the console without its program, which has the same configuration.
  have hfits : c.program.length ≤ Memory.programLimit := h.program_eq ▸ h.fits
  rw [reset, load_of_fits _ hfits, h.config_eq, h.program_eq]
  rfl

/-- One call keeps the invariant, for the program that the call loads if it loads one. -/
theorem retains_perform (h : Retains config program c) (call : Call) :
    Retains config ((c.loads? call).getD program) (c.perform call).console := by
  cases call with
  | load q entropy => exact h.load q entropy
  | loadRom rom entropy =>
    cases hrom : rom.contents with
    | ok q =>
      have hconsole : (c.perform (.loadRom rom entropy)).console = (c.load q entropy).console := by
        simp only [perform, loadRom, hrom, Reply.map]
      rw [loads?_loadRom hrom, hconsole]
      exact h.load q entropy
    | error fault =>
      have hperform : c.perform (.loadRom rom entropy) = ⟨.error fault, c, []⟩ := by
        simp only [perform, loadRom, hrom]
        rfl
      simp only [loads?, hperform]
      exact h
  | reset entropy =>
    rw [loads?_eq_none rfl]
    show Retains config program (c.reset entropy).console
    rw [h.reset_eq]
    exact retains_loaded config h.fits entropy
  | step =>
    rw [loads?_eq_none rfl]
    exact h.step
  | runFrame n =>
    rw [loads?_eq_none rfl]
    exact runFrame_keeps (fun _ => Retains.step) (fun _ h => h.of_same rfl rfl) n h
  | takeScreen =>
    rw [loads?_eq_none rfl]
    exact h.takeScreen
  | fetch | tick | press | release =>
    rw [loads?_eq_none rfl]
    exact h.of_same rfl rfl

/-- A history keeps the invariant, for the program that was loaded last. -/
theorem retains_after (h : Retains config program c) (calls : List Call) :
    Retains config (c.lastLoaded program calls) (c.after calls) := by
  induction calls generalizing c program with
  | nil => exact h
  | cons call calls ih => exact ih (retains_perform h call)

/-! ### Loads and resets -/

/-- Take any history of a console with a seed. The program that was loaded last fits, the
console still holds it, and a reset succeeds and gives the console that loading it into a new
console gives. So does a load of any program that fits, and memory then holds this program in
its place and zeros everywhere else. All this is so whatever entropy there is for the old console
and for the new one. -/
theorem reset_and_load_forget (config : Config) (seed : UInt64) (entropy : Random.Key)
    (calls : List Call) :
    let new := ofConfig (config.withSeed seed)
    let c := (new entropy).after calls
    let program := (new entropy).lastLoaded [] calls
    (program.length ≤ 0xE00 ∧ c.program = program) ∧
    ∀ entropy' created created',
    ((c.reset entropy').result = .ok () ∧
      (c.reset entropy').console = ((new created).load program created').console) ∧
    ∀ q : List UInt8, q.length ≤ 0xE00 →
      (c.load q entropy').result = .ok () ∧
      (c.load q entropy').console = ((new created).load q created').console ∧
      ∀ k < 4096, (c.load q entropy').console.machine.memory.bytes[k]?
        = some (if 0x200 ≤ k then q[k - 0x200]?.getD 0 else 0) := by
  intro new c program
  have h : Retains (config.withSeed seed) program c :=
    retains_after (retains_ofConfig _ entropy) calls
  refine ⟨⟨h.fits, h.program_eq⟩, ?_⟩
  intro entropy' created created'
  -- A load reads the configuration of the console, and nothing else.
  have hnew {q : List UInt8} (hq : q.length ≤ Memory.programLimit) :
      ((new created).load q created').console = loaded (config.withSeed seed) q entropy' := by
    rw [load_of_fits _ hq]
    exact loaded_of_seed rfl q created' entropy'
  refine ⟨⟨?_, ?_⟩, ?_⟩
  · rw [h.reset_eq]
  · rw [h.reset_eq, hnew h.fits]
  · intro q hq
    refine ⟨by rw [c.load_of_fits hq], ?_, ?_⟩
    · rw [c.load_of_fits hq, h.config_eq, hnew hq]
    · intro k hk
      rw [c.load_of_fits hq]
      exact Memory.getElem?_ofProgram q hk

/-- A program that sets a register and clears the screen, loaded, run, replaced in vain by one
that is too large, and run again. -/
def busyHistory : List Call :=
  [.load [0x61, 0x05, 0x00, 0xE0], .step, .press 0x3, .load (List.replicate 0xE01 0),
    .runFrame 1, .takeScreen, .reset, .step]

/-- A reset after the busy history loads its program again, and a load of two bytes leaves
nothing of it. -/
theorem reset_and_load_forget_busyHistory :
    let new := ofConfig (({} : Config).withSeed 7) .zero
    let c := new.after busyHistory
    let entropy : Random.Key := .replicate 8 1
    new.lastLoaded [] busyHistory = [0x61, 0x05, 0x00, 0xE0] ∧
    (c.reset entropy).console = (new.load [0x61, 0x05, 0x00, 0xE0] .zero).console ∧
    ([0x12, 0x34] : List UInt8).length ≤ 0xE00 ∧
    (c.load [0x12, 0x34] entropy).console = (new.load [0x12, 0x34] .zero).console ∧
    (c.load [0x12, 0x34] entropy).console.machine.memory.bytes[0x203]? = some 0 := by
  intro new c entropy
  have hlast : new.lastLoaded [] busyHistory = [0x61, 0x05, 0x00, 0xE0] := by decide +kernel
  have hfits : ([0x12, 0x34] : List UInt8).length ≤ 0xE00 := by decide
  obtain ⟨-, hforgets⟩ := reset_and_load_forget {} 7 .zero busyHistory
  obtain ⟨⟨-, hreset⟩, hload⟩ := hforgets entropy .zero .zero
  obtain ⟨-, hconsole, hbytes⟩ := hload [0x12, 0x34] hfits
  rw [hlast] at hreset
  exact ⟨hlast, hreset, hfits, hconsole, hbytes 0x203 (by decide)⟩

end Console

end Chip8
