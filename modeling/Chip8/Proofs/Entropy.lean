import Chip8.Proofs.Events

/-!
# `Chip8.Proofs.Entropy`: what a console hears of a history

A history has entropy in it, one key for each machine that its calls switch on. A console with a
seed does not look at it, and a console without one takes its random bytes from it.

`Call.heard` is what a console hears of a call: the call as it is, or, if there is a seed, the call
without its entropy (`Call.bare`). A call is answered by what is heard of it (`perform_heard`), and
so is a history (`after_heard`, `events_heard`). Statements about two histories ask for the same to
be heard of both. With a seed, this leaves the entropy of each history open. Without one it asks
that both consoles are given the same, as it must: a program that draws a byte shows the first one
of the entropy (`registers_drawOnce`).
-/

set_option autoImplicit false

namespace Chip8

namespace Call

/-- The call without its entropy. -/
def bare : Call → Call
  | .load program _ => .load program .zero
  | .loadRom rom _ => .loadRom rom .zero
  | .reset _ => .reset .zero
  | call => call

/-- What a console with the configuration hears of the call. -/
def heard (config : Config) (call : Call) : Call := if config.seed = none then call else call.bare

/-- With a seed, what is heard is the call without its entropy. -/
theorem heard_of_seed {config : Config} {seed : UInt64} (h : config.seed = some seed)
    (call : Call) : call.heard config = call.bare :=
  if_neg (by simp [h])

/-- What does not depend on the entropy of a call can be read off what is heard of it. -/
theorem apply_heard {α : Type} {f : Call → α} (h : ∀ call, f call.bare = f call) (config : Config)
    (call : Call) : f (call.heard config) = f call := by
  unfold heard
  split
  · rfl
  · exact h call

/-- Of the calls that are picked out without a look at their entropy, the same is heard before and
after. -/
theorem filter_map_heard {p : Call → Bool} (h : ∀ call, p call.bare = p call) (config : Config)
    (calls : List Call) :
    (calls.map (heard config)).filter p = (calls.filter p).map (heard config) := by
  rw [List.filter_map, show p ∘ heard config = p from funext fun call => apply_heard h config call]

end Call

namespace Console

/-- No call changes the configuration. -/
theorem config_perform (c : Console) (call : Call) : (c.perform call).console.config = c.config :=
  events_induction (P := fun _ d => d.config = c.config)
    (fun _ _ _ _ h => h)
    (fun _ d instr h hresult => by rw [console_step_of_ok hresult, h])
    (fun _ _ h => h) (fun _ _ _ _ _ h => h) rfl [call]

variable {c : Console} {config : Config}

/-- With a seed, a load does the same whatever the entropy. -/
theorem load_of_seed {seed : UInt64} (h : c.config.seed = some seed) (program : List UInt8)
    (entropy entropy' : Random.Key) : c.load program entropy = c.load program entropy' := by
  simp only [load, Machine.fresh_of_seed h entropy entropy']

/-- A call is answered by what is heard of it. -/
theorem perform_heard (h : c.config = config) (call : Call) :
    c.perform (call.heard config) = c.perform call := by
  cases hseed : config.seed with
  | none => rw [Call.heard, if_pos hseed]
  | some seed =>
    have hload (d : Console) (hd : d.config = c.config) (program : List UInt8)
        (entropy : Random.Key) : d.load program .zero = d.load program entropy :=
      load_of_seed (by rw [hd, h, hseed]) program .zero entropy
    rw [Call.heard_of_seed hseed]
    cases call with
    | load program entropy => simp only [Call.bare, perform, hload c rfl program entropy]
    | loadRom rom entropy =>
      simp only [Call.bare, perform, loadRom]
      cases rom.contents with
      | ok program => simp only [hload c rfl program entropy]
      | error fault => rfl
    | reset entropy =>
      simp only [Call.bare, perform, reset, hload { c with program := [] } rfl c.program entropy]
    | _ => rfl

/-- A history leads where what is heard of it leads. -/
theorem after_heard (h : c.config = config) (calls : List Call) :
    c.after (calls.map (Call.heard config)) = c.after calls := by
  induction calls generalizing c with
  | nil => rfl
  | cons call calls ih =>
    show (c.perform (call.heard config)).console.after _ = (c.perform call).console.after calls
    rw [perform_heard h, ih ((c.config_perform call).trans h)]

/-- The events of a call are those of what is heard of it. -/
theorem callEvents_heard (h : c.config = config) (call : Call) :
    c.callEvents (call.heard config) = c.callEvents call := by
  have hstarts : (call.heard config).startsOver = call.startsOver :=
    Call.apply_heard (fun call => by cases call <;> rfl) config call
  have hrestarts : c.restarts (call.heard config) = c.restarts call := by
    rw [restarts, restarts, perform_heard h, hstarts]
  cases hseed : config.seed with
  | none => rw [Call.heard, if_pos hseed]
  | some seed =>
    rw [Call.heard_of_seed hseed] at hrestarts ⊢
    cases call with
    | load | loadRom | reset =>
      exact congrArg (fun restarts => if restarts = true then [Event.startedOver] else [])
        hrestarts
    | _ => rfl

/-- The events of a history are those of what is heard of it. -/
theorem events_heard (h : c.config = config) (calls : List Call) :
    c.events (calls.map (Call.heard config)) = c.events calls := by
  induction calls generalizing c with
  | nil => rfl
  | cons call calls ih =>
    rw [List.map_cons, events, events, callEvents_heard h, perform_heard h,
      ih ((c.config_perform call).trans h)]

/-! ### Without a seed -/

/-- What a host does to load a program that draws a random byte, and to run it. -/
def drawOnce (entropy : Random.Key) : List Call := [.load [0xC0, 0xFF] entropy, .step]

/-- It draws a byte once. -/
theorem instructions_drawOnce :
    ((ofConfig {} .zero).events (drawOnce .zero)).filterMap Event.instruction?
      = [.random 0 0xFF] := by decide +kernel

/-- Without a seed, the byte is the first one of the entropy. -/
theorem registers_drawOnce (h : c.config.seed = none) (entropy : Random.Key) :
    (c.after (drawOnce entropy)).machine.registers
      = Registers.zero.set 0 (Random.byteAt entropy 0 &&& 0xFF) := by
  have hfits : ([0xC0, 0xFF] : List UInt8).length ≤ Memory.programLimit := by decide
  have hfetch : (loaded c.config [0xC0, 0xFF] entropy).fetch = .ok 0xC0FF := by
    show (Memory.ofProgram [0xC0, 0xFF]).readOpcode 0x200 = .ok 0xC0FF
    decide +kernel
  have hdecode : Instruction.decode? 0xC0FF = some (.random 0 0xFF) := rfl
  show (c.load [0xC0, 0xFF] entropy).console.step.console.machine.registers = _
  rw [c.load_of_fits hfits entropy, step_of_done hfetch hdecode rfl]
  show Registers.zero.set 0 (Random.byteAt (Random.start c.config.seed entropy).key 0 &&& 0xFF) = _
  rw [h]
  rfl

/-- So other entropy can give another byte. -/
theorem registers_drawOnce_ne {d : Console} (hc : c.config.seed = none)
    (hd : d.config.seed = none) :
    (d.after (drawOnce (.replicate 8 1))).machine.registers
      ≠ (c.after (drawOnce .zero)).machine.registers := by
  rw [registers_drawOnce hc, registers_drawOnce hd]
  decide +kernel

end Console

end Chip8
