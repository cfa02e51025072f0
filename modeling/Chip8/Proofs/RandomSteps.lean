import Chip8.Proofs.Lockstep

/-!
# `Chip8.Proofs.RandomSteps`: where the random bytes go

The random bytes of a key are drawn by one instruction, one byte each time, whether its mask
keeps a bit of the byte or not. So the place in the stream is a number of events, `Event.draws`:
those steps since the console last started over that executed this instruction. Steps that fail,
loads that fail, ticks, keys and the screen do not count, and no other instruction does.

The invariant is `DrawsInOrder`: the machine stands in the stream where the events say, and every
random step so far took the byte at its place.

A history in which no random step keeps a bit of its byte is the same under every seed. This is
an instance of `Alike.after_of_same`, for machines that agree but for their random bytes.
-/

set_option autoImplicit false

namespace Chip8

open Machine (Component)

/-! ### One instruction -/

namespace Instruction

/-- The instruction draws a random byte. -/
def isRandom : Instruction → Bool
  | .random .. => true
  | _ => false

/-- An instruction draws one byte or none, and goes on with the same stream. -/
theorem random_execute (instr : Instruction) (m : Machine) :
    (instr.execute m).machine.random
      = { m.random with drawn := m.random.drawn + if instr.isRandom then 1 else 0 } := by
  by_cases hchanges : .random ∈ instr.changes
  · cases instr <;> simp_all [changes, isRandom, execute, Outcome.done, Machine.setRegister,
      Machine.drawRandom, Random.next]
  · -- What does not change the random bytes does not draw one.
    have hplain : instr.isRandom = false := by
      cases instr <;> simp_all [changes, isRandom]
    have hkept : (instr.execute m).machine.random = m.random := same_execute hchanges m
    simp [hkept, hplain]

/-- The byte that a random step draws is the one at its place in the stream. -/
theorem registers_execute_random (x mask : UInt8) (m : Machine) :
    ((Instruction.random x mask).execute m).machine.registers
      = m.registers.set x (Random.byteAt m.random.key m.random.drawn &&& mask) := rfl

end Instruction

/-! ### The events -/

namespace Event

/-- The event is a step that drew a random byte. -/
def isRandom : Event → Bool
  | .executed instr _ _ => instr.isRandom
  | _ => false

/-- How many random bytes were drawn since the console last started over. -/
def draws (events : List Event) : Nat := (recent events).countP isRandom

/-- No byte was drawn right after a start. -/
theorem draws_append_startedOver (events : List Event) :
    draws (events ++ [.startedOver]) = 0 := by
  simp [draws, recent_append_startedOver]

/-- A random step counts as one draw more, and no other event does. -/
theorem draws_append {event : Event} (h : event.isStart = false) (events : List Event) :
    draws (events ++ [event]) = draws events + if event.isRandom then 1 else 0 := by
  simp [draws, recent_append h, List.countP_cons]

/-- Every random step took the byte at its place in the stream of the key, masked. -/
def TakesInOrder (key : Random.Key) (events : List Event) : Prop :=
  ∀ earlier x mask before after later,
    events = earlier ++ .executed (.random x mask) before after :: later →
      after.registers
        = before.registers.set x (Random.byteAt key (draws earlier) &&& mask)

/-- To go on with an event, this event has to take its byte. -/
theorem TakesInOrder.append {key : Random.Key} {events : List Event} {event : Event}
    (h : TakesInOrder key events)
    (hevent : ∀ x mask before after, event = .executed (.random x mask) before after →
      after.registers
        = before.registers.set x (Random.byteAt key (draws events) &&& mask)) :
    TakesInOrder key (events ++ [event]) := by
  intro earlier x mask before after later hsplit
  -- The random step is the event that was added, or stands in front of it.
  rcases List.eq_nil_or_concat later with rfl | ⟨later, last, rfl⟩
  · obtain ⟨rfl, rfl⟩ := List.append_singleton_inj.mp hsplit
    exact hevent x mask before after rfl
  · rw [List.concat_eq_append, ← List.cons_append, ← List.append_assoc] at hsplit
    obtain ⟨rfl, -⟩ := List.append_singleton_inj.mp hsplit
    exact h earlier x mask before after later rfl

end Event

/-! ### Two seeds -/

namespace Machine

/-- A seed decides the random bytes of a fresh machine and nothing else. -/
theorem agreeExcept_fresh_withSeed (config : Config) (seed seed' : UInt64)
    (entropy entropy' : Random.Key) :
    AgreeExcept [.random] (fresh (config.withSeed seed) entropy)
      (fresh (config.withSeed seed') entropy') := by
  intro p hp
  cases p <;> simp_all [Component.Same, fresh, Config.withSeed]

/-- So two consoles with different seeds are in lockstep but for their random bytes. -/
theorem lockstep_withSeed (config : Config) (seed seed' : UInt64) :
    Lockstep (AgreeExcept [.random]) (config.withSeed seed) (config.withSeed seed') :=
  lockstep_agreeExcept (by simp) fun entropy =>
    agreeExcept_fresh_withSeed config seed seed' entropy entropy

end Machine

namespace Console

/-! ### Histories -/

/-- The machine draws from the stream of the seed and stands where the events say. -/
structure DrawsInOrder (seed : UInt64) (events : List Event) (c : Console) : Prop where
  config_eq : c.config.seed = some seed
  random_eq : c.machine.random = ⟨Random.expand seed, Event.draws events⟩
  takes : Event.TakesInOrder (Random.expand seed) events

section

variable {seed : UInt64} {past : List Event} {c : Console}

/-- A load starts the stream again. -/
theorem DrawsInOrder.loaded (h : DrawsInOrder seed past c) (program : List UInt8)
    (entropy : Random.Key) :
    DrawsInOrder seed (past ++ [.startedOver]) (loaded c.config program entropy) := by
  -- The fresh machine is at the start of the stream, and the count starts again too.
  refine ⟨h.config_eq, ?_, h.takes.append nofun⟩
  rw [Event.draws_append_startedOver]
  simp [Console.loaded, Machine.fresh, h.config_eq, Random.start]

/-- A step goes on in the stream if it draws, and takes the byte at its place. -/
theorem DrawsInOrder.step (h : DrawsInOrder seed past c) {instr : Instruction}
    (hresult : c.step.result = .ok instr) :
    DrawsInOrder seed (past ++ [.executed instr c.machine c.step.console.machine])
      c.step.console := by
  rw [console_step_of_ok hresult]
  -- The instruction finds the machine at the place to which the events have come.
  have hrandom : c.machine.advance.random = ⟨Random.expand seed, Event.draws past⟩ := h.random_eq
  refine ⟨h.config_eq, ?_, h.takes.append ?_⟩
  · rw [Event.draws_append rfl, Instruction.random_execute, hrandom]
    rfl
  · intro x mask before after hevent
    cases hevent
    rw [Instruction.registers_execute_random, hrandom]
    rfl

/-- A tick draws nothing. -/
theorem DrawsInOrder.tick (h : DrawsInOrder seed past c) :
    DrawsInOrder seed (past ++ [.ticked]) c.tick := by
  refine ⟨h.config_eq, ?_, h.takes.append nofun⟩
  rw [Event.draws_append rfl]
  exact h.random_eq

/-- A new console is where its seed starts, and every history keeps to the order of the stream. -/
theorem drawsInOrder_after (config : Config) (seed : UInt64) (entropy : Random.Key)
    (calls : List Call) :
    let new := ofConfig (config.withSeed seed) entropy
    DrawsInOrder seed (new.events calls) (new.after calls) := by
  intro new
  have hnew : DrawsInOrder seed [] new := ⟨rfl, rfl, by simp [Event.TakesInOrder]⟩
  exact events_induction (P := DrawsInOrder seed)
    (fun past c program entropy h => h.loaded program entropy)
    (fun past c instr h hresult => h.step hresult)
    (fun past c h => h.tick)
    (fun past c keypad redraw program h => ⟨h.config_eq, h.random_eq, h.takes⟩) hnew calls

/-- Two consoles with different seeds answer alike to a history whose random steps keep no bit. -/
theorem Alike.after_of_masked {config : Config} {seed' : UInt64} {d : Console}
    (h : Alike (Machine.AgreeExcept [.random]) (config.withSeed seed) (config.withSeed seed') c d)
    {calls calls' : List Call} (hsame : calls.map Call.bare = calls'.map Call.bare)
    (hmasks : ∀ x mask before after,
      .executed (.random x mask) before after ∈ c.events calls → mask = 0) :
    c.answers (fun _ => true) calls = d.answers (fun _ => true) calls' ∧
      Alike (Machine.AgreeExcept [.random]) (config.withSeed seed) (config.withSeed seed')
        (c.after calls) (d.after calls') := by
  have hkeeps : ∀ instr before after, .executed instr before after ∈ c.events calls →
      instr.Keeps (Machine.AgreeExcept [.random]) := by
    intro instr before after hmem
    refine Instruction.keeps_of_reads fun q hq hhidden => ?_
    obtain rfl := List.mem_singleton.mp hhidden
    obtain ⟨x, mask, rfl, hmask⟩ := Instruction.random_mem_reads_iff.mp hq
    exact hmask (hmasks x mask before after hmem)
  -- With a seed, what is heard of a call is the call without its entropy.
  have hheard (seed : UInt64) : Call.heard (config.withSeed seed) = Call.bare :=
    funext fun call => Call.heard_of_seed rfl call
  refine h.after_of_same (Machine.lockstep_withSeed config seed seed') ?_ ?_ hkeeps
  · rw [hheard, hheard]
  · rw [hheard, hsame]

end

/-- A console that was created from a seed draws the random bytes of this seed in order, by random
steps alone. After any history, the place in the stream is the number of random steps since the
console last started over. Every random step in the history put the byte at its place into its
register, masked, also where the mask is zero. And with another seed, the same calls have the same
answers and lead to the same console but for the random bytes and the seed, if every random step
in the history has a mask of zero. The entropy of the two histories has no part in all this. -/
theorem random_steps_take_the_stream (config : Config) (seed : UInt64) (entropy : Random.Key)
    (calls : List Call) :
    let new := ofConfig (config.withSeed seed) entropy
    let c := new.after calls
    let events := new.events calls
    c.machine.random = ⟨Random.expand seed, Event.draws events⟩ ∧
    (∀ earlier x mask before after later,
      events = earlier ++ .executed (.random x mask) before after :: later →
        after.registers = before.registers.set x
          (Random.byteAt (Random.expand seed) (Event.draws earlier) &&& mask)) ∧
    ∀ seed' entropy' calls', calls.map Call.bare = calls'.map Call.bare →
      (∀ x mask before after, .executed (.random x mask) before after ∈ events → mask = 0) →
      let new' := ofConfig (config.withSeed seed') entropy'
      new.answers (fun _ => true) calls = new'.answers (fun _ => true) calls' ∧
      ∃ random, new'.after calls' =
        { c with config := config.withSeed seed', machine := { c.machine with random } } := by
  intro new c events
  obtain ⟨-, hrandom, htakes⟩ := drawsInOrder_after config seed entropy calls
  refine ⟨hrandom, htakes, ?_⟩
  intro seed' entropy' calls' hsame hmasks new'
  have hnew : Alike (Machine.AgreeExcept [.random]) (config.withSeed seed)
      (config.withSeed seed') new new' :=
    alike_ofConfig (Machine.agreeExcept_fresh_withSeed config seed seed' entropy entropy')
  obtain ⟨hanswers, halike⟩ := hnew.after_of_masked hsame hmasks
  exact ⟨hanswers, _, halike.eq halike.machine.eq_replace⟩

/-- A program that draws three bytes, keeps none of the bits of the second, and goes on to an
opcode that does not exist. -/
def drawing : List UInt8 := [0xC0, 0xFF, 0xC1, 0x00, 0xC2, 0x0F, 0x8F, 0xFF]

/-- What a host does with it: a load that fails, a tick, a key and a failed step stand between the
steps that draw. -/
def drawingCalls : List Call :=
  [.load drawing, .step, .loadRom ⟨[], some "gone"⟩, .step, .tick, .press 0x1]

/-- The third byte of seed seven is 134. A program that masks the byte away runs as under any other
seed and with any other entropy. -/
theorem random_steps_take_the_stream_masked :
    let new := ofConfig (Config.withSeed {} 7) .zero
    let new' := ofConfig (Config.withSeed {} 9) .zero
    let d := new.after drawingCalls
    let masked (entropy : Random.Key) := [Call.load [0xC1, 0x00] entropy, .step]
    let other : Random.Key := .replicate 8 1
    (new.after (drawingCalls ++ [.step, .step])).machine.random = ⟨Random.expand 7, 3⟩ ∧
    d.step.result = .ok (.random 2 0x0F) ∧
    d.step.console.machine.registers = d.machine.registers.set 2 (134 &&& 0x0F) ∧
    new'.answers (fun _ => true) (masked other) = [.ok .done, .ok (.executed (.random 1 0))] ∧
    ∃ random, new'.after (masked other) = { new.after (masked .zero) with
      config := Config.withSeed {} 9
      machine := { (new.after (masked .zero)).machine with random } } := by
  dsimp only
  have hstep : ((ofConfig (Config.withSeed {} 7) .zero).after drawingCalls).step.result
      = .ok (.random 2 0x0F) := by decide +kernel
  obtain ⟨hrandom, htakes, -⟩ := random_steps_take_the_stream {} 7 .zero
    (drawingCalls ++ [.step, .step])
  obtain ⟨-, -, hseeds⟩ := random_steps_take_the_stream {} 7 .zero
    [Call.load [0xC1, 0x00] .zero, .step]
  dsimp only at hseeds
  have hexecuted : ((ofConfig (Config.withSeed {} 7) .zero).events
      [Call.load [0xC1, 0x00] .zero, .step]).filterMap Event.instruction?
        = [.random 1 0] := by decide +kernel
  obtain ⟨hanswers, hlast⟩ := hseeds 9 .zero [.load [0xC1, 0x00] (.replicate 8 1), .step] rfl
    fun x mask before after hmem => by
      have hmem := Event.mem_filterMap_instruction? hmem
      rw [hexecuted, List.mem_singleton] at hmem
      cases hmem
      rfl
  refine ⟨?_, hstep, ?_, ?_, hlast⟩
  · rw [hrandom]
    decide +kernel
  · rw [htakes (Console.events _ drawingCalls) 2 0x0F _ _ _ (events_append_step hstep _)]
    have hbyte : Random.byteAt (Random.expand 7)
        (Event.draws ((ofConfig (Config.withSeed {} 7) .zero).events drawingCalls)) = 134 := by
      decide +kernel
    rw [hbyte]
  · rw [← hanswers]
    decide +kernel

end Console

end Chip8
