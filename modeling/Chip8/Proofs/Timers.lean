import Chip8.Proofs.Events

/-!
# `Chip8.Proofs.Timers`: what the timers show

A timer shows the byte that a program last put into it, less one for each tick since, and stops at
zero. `Timer.setting` and `Timer.ticksSince` read the byte and the ticks off the events of a
history, and `timers_count_ticks` is the equation. Both timers obey it, so there is one proof with
the timer as a parameter.

What is not an event has no part in it: failed steps, frames that a failed step cut short, loads
that failed, keys and the screen. Of the events, the other instructions have none
(`Timer.value_execute`).
-/

set_option autoImplicit false

namespace Chip8

open Machine (Component)

/-- The two timers. -/
inductive Timer where
  | delay
  | sound
  deriving DecidableEq

namespace Timer

variable {timer : Timer}

/-! ### One instruction, one tick -/

/-- What the timer shows. -/
def value (timer : Timer) (m : Machine) : UInt8 :=
  match timer with
  | .delay => m.delay
  | .sound => m.sound

/-- The register that the instruction puts into the timer. -/
def source? (timer : Timer) (instr : Instruction) : Option UInt8 :=
  match timer, instr with
  | .delay, .setDelay x => some x
  | .sound, .setSound x => some x
  | _, _ => none

/-- An instruction that puts a register into the timer does so. -/
theorem value_execute_of_some {instr : Instruction} {x : UInt8} (h : timer.source? instr = some x)
    (m : Machine) : timer.value (instr.execute m).machine = m.registers.get x := by
  unfold source? at h
  split at h
  · cases h
    rfl
  · cases h
    rfl
  · exact nomatch h

/-- Every other instruction leaves the timer alone. -/
theorem value_execute_of_none {instr : Instruction} (h : timer.source? instr = none)
    (m : Machine) : timer.value (instr.execute m).machine = timer.value m := by
  cases timer with
  | delay =>
    have hkept : .delay ∉ instr.changes := by
      cases instr <;> simp_all [source?, Instruction.changes]
    exact Instruction.same_execute hkept m
  | sound =>
    have hkept : .sound ∉ instr.changes := by
      cases instr <;> simp_all [source?, Instruction.changes]
    exact Instruction.same_execute hkept m

/-- A tick takes one off, down to zero. -/
theorem toNat_value_tick (timer : Timer) (m : Machine) :
    (timer.value m.tick).toNat = (timer.value m).toNat - 1 := by
  have hcount (b : UInt8) : (if b = 0 then 0 else b - 1).toNat = b.toNat - 1 := by
    by_cases hb : b = 0
    · simp [hb]
    · have hpos : b.toNat ≠ 0 := fun hzero => hb (UInt8.toNat_inj.mp hzero)
      have hle : (1 : UInt8) ≤ b := UInt8.le_iff_toNat_le.mpr (Nat.pos_of_ne_zero hpos)
      rw [if_neg hb, UInt8.toNat_sub_of_le _ _ hle]
      rfl
  cases timer with
  | delay => exact hcount m.delay
  | sound => exact hcount m.sound

/-! ### The events -/

/-- The byte that an event put into the timer. -/
def setBy? (timer : Timer) : Event → Option UInt8
  | .executed instr before _ => (timer.source? instr).map before.registers.get
  | _ => none

/-- The byte that was last put into the timer since the console started over, and zero before the
first. -/
def setting (timer : Timer) (events : List Event) : UInt8 :=
  ((Event.recent events).findSome? timer.setBy?).getD 0

/-- How often the timers were counted down since a byte was last put into the timer, or since the
console started over. -/
def ticksSince (timer : Timer) (events : List Event) : Nat :=
  ((Event.recent events).takeWhile fun e => (timer.setBy? e).isNone).count .ticked

/-- The byte is zero right after a start. -/
theorem setting_append_startedOver (timer : Timer) (events : List Event) :
    timer.setting (events ++ [.startedOver]) = 0 := by
  simp [setting, Event.recent_append_startedOver]

/-- An event that puts a byte into the timer is the last one to do so. -/
theorem setting_append_of_set {event : Event} (h : event.isStart = false) {value : UInt8}
    (hset : timer.setBy? event = some value) (events : List Event) :
    timer.setting (events ++ [event]) = value := by
  simp [setting, Event.recent_append h, hset]

/-- No tick has come since such an event. -/
theorem ticksSince_append_of_set {event : Event} (h : event.isStart = false) {value : UInt8}
    (hset : timer.setBy? event = some value) (events : List Event) :
    timer.ticksSince (events ++ [event]) = 0 := by
  simp [ticksSince, Event.recent_append h, hset]

/-- Every other event leaves the byte that was put in last. -/
theorem setting_append_of_not_set {event : Event} (h : event.isStart = false)
    (hset : timer.setBy? event = none) (events : List Event) :
    timer.setting (events ++ [event]) = timer.setting events := by
  simp [setting, Event.recent_append h, hset]

/-- Of the other events, a tick counts one more. -/
theorem ticksSince_append_of_not_set {event : Event} (h : event.isStart = false)
    (hset : timer.setBy? event = none) (events : List Event) :
    timer.ticksSince (events ++ [event])
      = timer.ticksSince events + if event = .ticked then 1 else 0 := by
  simp [ticksSince, Event.recent_append h, hset, List.count_cons]

/-! ### Histories -/

/-- The timer shows on the machine what the events say. -/
def Agrees (timer : Timer) (events : List Event) (m : Machine) : Prop :=
  (timer.value m).toNat = (timer.setting events).toNat - timer.ticksSince events

variable {past : List Event} {c : Console}

/-- A load puts the timers to zero. -/
theorem agrees_loaded (timer : Timer) (past : List Event) (config : Config)
    (program : List UInt8) (entropy : Random.Key) :
    timer.Agrees (past ++ [.startedOver]) (Console.loaded config program entropy).machine := by
  rw [Agrees, setting_append_startedOver]
  cases timer <;> simp [value, Console.loaded, Machine.fresh]

/-- A step keeps timer and events in agreement. -/
theorem Agrees.step (h : timer.Agrees past c.machine) {instr : Instruction}
    (hresult : c.step.result = .ok instr) :
    timer.Agrees (past ++ [.executed instr c.machine c.step.console.machine])
      c.step.console.machine := by
  rw [Console.console_step_of_ok hresult]
  cases hsource : timer.source? instr with
  | some x =>
    -- The byte is new, and no tick has come since.
    have hset (after : Machine) : timer.setBy? (.executed instr c.machine after)
        = some (c.machine.registers.get x) := by
      simp [setBy?, hsource]
    rw [Agrees, setting_append_of_set rfl (hset _), ticksSince_append_of_set rfl (hset _),
      value_execute_of_some hsource]
    rfl
  | none =>
    -- Neither the timer nor what the events say of it changes.
    have hset (after : Machine) : timer.setBy? (.executed instr c.machine after) = none := by
      simp [setBy?, hsource]
    rw [Agrees, setting_append_of_not_set rfl (hset _), ticksSince_append_of_not_set rfl (hset _),
      value_execute_of_none hsource]
    cases timer <;> exact h

/-- So does a tick. -/
theorem Agrees.tick (h : timer.Agrees past c.machine) :
    timer.Agrees (past ++ [.ticked]) c.tick.machine := by
  rw [Agrees] at h ⊢
  rw [setting_append_of_not_set rfl rfl, ticksSince_append_of_not_set rfl rfl, if_pos rfl,
    ← Nat.sub_sub, ← h]
  exact timer.toNat_value_tick c.machine

end Timer

namespace Console

/-- The timers of a new console show zero, and every history keeps them to what its events say. -/
theorem agrees_after (config : Config) (entropy : Random.Key) (calls : List Call)
    (timer : Timer) :
    let new := ofConfig config entropy
    timer.Agrees (new.events calls) (new.after calls).machine := by
  intro new
  have hnew : timer.Agrees [] new.machine := by cases timer <;> rfl
  exact events_induction (P := fun past d => timer.Agrees past d.machine)
    (fun past d program entropy h => timer.agrees_loaded past d.config program entropy)
    (fun past d instr h hresult => h.step hresult)
    (fun past d h => h.tick)
    (fun past d keypad redraw program h => by cases timer <;> exact h) hnew calls

/-- Both timers count ticks down from the byte that was put into them last. After any history of a
new console, each shows the byte that a step last put into it since the console started over, or
zero if none did, less the number of ticks since, and zero once these are as many. A tone plays as
long as the sound is not at zero. -/
theorem timers_count_ticks (config : Config) (entropy : Random.Key) (calls : List Call) :
    let new := ofConfig config entropy
    let c := new.after calls
    let left (timer : Timer) : Nat :=
      (timer.setting (new.events calls)).toNat - timer.ticksSince (new.events calls)
    c.machine.delay.toNat = left .delay ∧ c.machine.sound.toNat = left .sound ∧
    (c.soundActive = true ↔ 0 < left .sound) := by
  intro new c left
  have hagrees := agrees_after config entropy calls
  have hsound : c.machine.sound.toNat = left .sound := hagrees .sound
  refine ⟨hagrees .delay, hsound, ?_⟩
  rw [← hsound]
  simp [soundActive, Nat.pos_iff_ne_zero, ← UInt8.toNat_inj]

/-- A frame puts five into the delay and ends with a tick, and two more ticks follow. -/
example : ((createWith {} [0x60, 0x05, 0xF0, 0x15]).console.after
    [.runFrame 2, .tick, .tick]).machine.delay = 2 := by decide +kernel

end Console

end Chip8
