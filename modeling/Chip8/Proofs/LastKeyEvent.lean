import Chip8.Proofs.UnseenKeys

/-!
# `Chip8.Proofs.LastKeyEvent`: the keypad shows what happened last

A key is down if the last thing that happened to it was that it was pressed. What happens to a key
is that a host presses or releases it, and that the console is created or starts over, which
releases all keys. `Console.keyEvents` reads this off a history, for each key on its own, and
`shows_after` is the law: the last event wins, however many came before it.

Nothing else has a part in it. Steps and frames keep the keypad, whether they fail or not, and so
do ticks, and loads and resets that fail. A key that the pad does not have is never down, since
pressing it is refused (`press_of_absent`).

The waiting instruction asks for the lowest key that is down, and
`Keypad.firstPressed?_eq_some_iff` says which one this is.
-/

set_option autoImplicit false

namespace Chip8

/-- Something that happened to a key. -/
inductive KeyEvent where
  /-- The console was created or started over. -/
  | cleared
  | pressed
  | released
  deriving DecidableEq

/-! ### One pad -/

namespace Keypad

/-- No key of a released pad is down. -/
theorem isDown_released (k : UInt8) : released.isDown k = false := by
  unfold isDown released
  by_cases hk : k.toNat < 16 <;> simp [hk]

/-- The key that is found is the lowest of those that are down. -/
theorem firstPressed?_eq_some_iff (pad : Keypad) (k : UInt8) :
    pad.firstPressed? = some k ↔
      pad.isDown k = true ∧ ∀ j, pad.isDown j = true → k ≤ j := by
  constructor
  · exact isDown_of_firstPressed?
  · intro ⟨hk, hlowest⟩
    cases hfirst : pad.firstPressed? with
    | none =>
      have hup := (firstPressed?_eq_none_iff pad).mp hfirst k
      simp [hk] at hup
    | some j =>
      -- Both are down, so each is at most the other.
      obtain ⟨hj, hlowest'⟩ := isDown_of_firstPressed? hfirst
      rw [UInt8.le_antisymm (hlowest' k hk) (hlowest j hj)]

/-- A key that the pad does not have is refused. -/
theorem put_of_absent (pad : Keypad) {k : UInt8} (hk : 0xF < k.toNat) (down : Bool) :
    pad.put k down = .error (.invalidKey k) := by
  rw [put, dif_neg (by omega)]

end Keypad

/-- Putting a key down or up shows on that key, if the pad has it, and on no other. -/
theorem Machine.isDown_put (m : Machine) (j k : UInt8) (down : Bool) :
    (Outcome.ofPart m (m.keypad.put j down) fun keypad => { m with keypad }).machine.keypad.isDown k
      = if j = k then down && decide (k.toNat ≤ 0xF) else m.keypad.isDown k := by
  by_cases hj : j.toNat < 16
  · cases hput : m.keypad.put j down with
    | error fault => simp [Keypad.put, hj] at hput
    | ok keypad =>
      show keypad.isDown k = _
      rw [Keypad.isDown_put hput]
      by_cases hjk : j = k
      · have hk : k.toNat ≤ 0xF := by
          rw [← hjk]
          omega
        simp [hjk, hk]
      · simp [hjk, Ne.symm hjk]
  · rw [m.keypad.put_of_absent (by omega)]
    show m.keypad.isDown k = _
    by_cases hjk : j = k
    · -- The pad does not have the key, so it is not down either.
      have hk : ¬ k.toNat < 16 := by rwa [← hjk]
      have hup : m.keypad.isDown k = false := by
        simpa using fun hdown => hk (Keypad.toNat_lt_of_isDown hdown)
      simp [hjk, hup, show ¬ k.toNat ≤ 0xF by omega]
    · simp [hjk]

namespace Console

variable {c : Console} {k : UInt8}

/-! ### Events of a key -/

/-- What a call brings about for key `k`. -/
def keyEvent? (c : Console) (k : UInt8) (call : Call) : Option KeyEvent :=
  match call with
  | .press j => if j = k then some .pressed else none
  | .release j => if j = k then some .released else none
  | .load .. | .loadRom .. | .reset _ => if c.restarts call then some .cleared else none
  | .fetch | .step | .runFrame _ | .tick | .takeScreen => none

/-- What a history brings about for key `k`, the earliest first. -/
def keyEvents (c : Console) (k : UInt8) : List Call → List KeyEvent
  | [] => []
  | call :: calls => (c.keyEvent? k call).toList ++ (c.perform call).console.keyEvents k calls

/-! ### One call -/

/-- No step changes the keypad, whether it fails or not. -/
theorem keypad_step (c : Console) : c.step.console.machine.keypad = c.machine.keypad := by
  cases hresult : c.step.result with
  | ok instr => exact keypad_step_of_ok hresult
  | error fault => rw [console_step_of_error hresult]

/-- So it is for a frame. -/
theorem keypad_runFrame (c : Console) (n : Nat) :
    (c.runFrame n).console.machine.keypad = c.machine.keypad :=
  runFrame_keeps (P := fun d => d.machine.keypad = c.machine.keypad)
    (fun d h => (keypad_step d).trans h) (fun _ h => h) n rfl

/-- Taking the screen lowers the redraw and nothing else. -/
theorem machine_takeScreen (c : Console) : c.takeScreen.2.machine = c.machine := by
  unfold takeScreen
  split <;> rfl

/-- A console that starts over has no key down, and one that fails to keeps its keys. -/
theorem isDown_perform_of_startsOver {call : Call} (hcall : call.startsOver = true) :
    (c.perform call).console.machine.keypad.isDown k
      = if c.restarts call then false else c.machine.keypad.isDown k := by
  rcases c.restarts_cases hcall with ⟨hrestarts, program, entropy, hconsole⟩ |
    ⟨hrestarts, program, hconsole⟩
  · rw [hrestarts, hconsole, if_pos rfl]
    exact Keypad.isDown_released k
  · simp [hrestarts, hconsole]

/-- A call leaves key `k` as the event says, and as it was if there is none. -/
theorem isDown_perform (c : Console) (k : UInt8) (call : Call) :
    (c.perform call).console.machine.keypad.isDown k =
      match c.keyEvent? k call with
      | some event => decide (event = .pressed) && decide (k.toNat ≤ 0xF)
      | none => c.machine.keypad.isDown k := by
  cases call with
  | load | loadRom | reset =>
    rw [isDown_perform_of_startsOver rfl]
    simp only [keyEvent?]
    split
    · rfl
    · rfl
  | press j | release j =>
    refine (c.machine.isDown_put j k _).trans ?_
    simp only [keyEvent?]
    split <;> simp
  | step => exact congrArg (Keypad.isDown · k) (keypad_step c)
  | runFrame n => exact congrArg (Keypad.isDown · k) (keypad_runFrame c n)
  | takeScreen => exact congrArg (fun m => m.keypad.isDown k) (machine_takeScreen c)
  | fetch | tick => rfl

/-- A key that the pad does not have is refused, and nothing changes. -/
theorem press_of_absent (c : Console) (hk : 0xF < k.toNat) :
    c.press k = ⟨.error (.invalidKey k), c, []⟩ ∧
    c.release k = ⟨.error (.invalidKey k), c, []⟩ := by
  have hput := c.machine.keypad.put_of_absent hk
  constructor
  · simp [press, ofOutcome, Machine.press, Keypad.press, hput, Outcome.ofPart]
  · simp [release, ofOutcome, Machine.release, Keypad.release, hput, Outcome.ofPart]

/-! ### Histories -/

/-- Key `k` is down if the pad has it and it was pressed last. -/
def Shows (k : UInt8) (past : List KeyEvent) (c : Console) : Prop :=
  c.machine.keypad.isDown k = true ↔ k.toNat ≤ 0xF ∧ past.getLast? = some .pressed

/-- What is shown before a call, and what the call brings about, is shown after it. -/
theorem Shows.perform {past : List KeyEvent} (h : Shows k past c) (call : Call) :
    Shows k (past ++ (c.keyEvent? k call).toList) (c.perform call).console := by
  rw [Shows, isDown_perform]
  cases c.keyEvent? k call with
  | none => simpa [Shows] using h
  | some event => simp [and_comm]

/-- So it is for a history. -/
theorem Shows.after {past : List KeyEvent} (h : Shows k past c) (calls : List Call) :
    Shows k (past ++ c.keyEvents k calls) (c.after calls) := by
  induction calls generalizing c past with
  | nil =>
    rw [keyEvents, List.append_nil]
    exact h
  | cons call calls ih =>
    rw [keyEvents, ← List.append_assoc]
    exact ih (h.perform call)

/-- In a new console no key is down, and every history keeps the keys to their events. -/
theorem shows_after (config : Config) (entropy : Random.Key) (calls : List Call) (k : UInt8) :
    let new := ofConfig config entropy
    Shows k (.cleared :: new.keyEvents k calls) (new.after calls) := by
  intro new
  have hnew : Shows k [.cleared] new := by
    rw [Shows]
    simp [new, ofConfig, Machine.fresh, Keypad.isDown_released]
  exact hnew.after calls

/-- The keypad shows the last event of each key. After any history of a new console, a key is down
if and only if the pad has it and, of the events that concern it, the last one is that it was
pressed: the creation of the console, loads and resets that succeeded, and presses and releases of
this key. A key that the pad does not have is refused when it is pressed or released, and nothing
changes. The first key that is down is the lowest, and there is none exactly when no key is down. -/
theorem keypad_shows_last_event (config : Config) (entropy : Random.Key) (calls : List Call)
    (k : UInt8) :
    let new := ofConfig config entropy
    let c := new.after calls
    let pad := c.machine.keypad
    (pad.isDown k = true ↔
      k.toNat ≤ 0xF ∧ (KeyEvent.cleared :: new.keyEvents k calls).getLast? = some .pressed) ∧
    (0xF < k.toNat → c.press k = ⟨.error (.invalidKey k), c, []⟩ ∧
      c.release k = ⟨.error (.invalidKey k), c, []⟩) ∧
    (pad.firstPressed? = some k ↔
      pad.isDown k = true ∧ ∀ j, pad.isDown j = true → k ≤ j) ∧
    (pad.firstPressed? = none ↔ ∀ j, pad.isDown j = false) := by
  intro new c pad
  exact ⟨shows_after config entropy calls k, fun hk => c.press_of_absent hk,
    pad.firstPressed?_eq_some_iff k, pad.firstPressed?_eq_none_iff⟩

/-- Keys pressed before and after a load, some of them twice, one that the pad does not have, and
one that is released again. -/
def fumbledCalls : List Call :=
  [.press 0x3, .load [0x12, 0x00], .press 0x7, .press 0x7, .step, .press 0xB, .press 0x20,
    .load (List.replicate 0xE01 0), .release 0x7, .runFrame 2]

/-- Of the keys only the last one is still down, and the one that the pad does not have is
refused. -/
theorem keypad_shows_last_event_fumbled :
    let new := ofConfig {} .zero
    let c := new.after fumbledCalls
    (new.keyEvents 0x7 fumbledCalls = [.cleared, .pressed, .pressed, .released] ∧
      c.machine.keypad.isDown 0x7 ≠ true) ∧
    (new.keyEvents 0xB fumbledCalls = [.cleared, .pressed] ∧
      c.machine.keypad.isDown 0xB = true) ∧
    (new.keyEvents 0x20 fumbledCalls = [.cleared, .pressed] ∧
      c.machine.keypad.isDown 0x20 ≠ true ∧
      c.press 0x20 = ⟨.error (.invalidKey 0x20), c, []⟩) := by
  intro new c
  have hevents : new.keyEvents 0x7 fumbledCalls = [.cleared, .pressed, .pressed, .released] ∧
      new.keyEvents 0xB fumbledCalls = [.cleared, .pressed] ∧
      new.keyEvents 0x20 fumbledCalls = [.cleared, .pressed] := by decide +kernel
  obtain ⟨hseven, heleven, habsent⟩ := hevents
  have hseven' := (keypad_shows_last_event {} .zero fumbledCalls 0x7).1
  have heleven' := (keypad_shows_last_event {} .zero fumbledCalls 0xB).1
  obtain ⟨habsent', hrefused, -⟩ := keypad_shows_last_event {} .zero fumbledCalls 0x20
  rw [hseven] at hseven'
  rw [heleven] at heleven'
  refine ⟨⟨hseven, ?_⟩, ⟨heleven, ?_⟩, habsent, ?_, ?_⟩
  · rw [Ne, hseven']
    simp
  · rw [heleven']
    simp
  · rw [Ne, habsent']
    simp
  · exact (hrefused (by decide)).1

end Console

end Chip8
