import Chip8.Proofs.Lockstep
import Chip8.Proofs.Reachable

/-!
# `Chip8.Proofs.Dialects`: what the dialect decides

A dialect has two switches. One says whether `or`, `and` and `xor` clear the flag, and the other
which of its registers a shift reads. So two consoles with different dialects can come apart in
two ways only: one of the three logic operations is executed and the dialects differ in the first
switch, or a shift of one register into another is executed and they differ in the second. A shift
of a register into itself reads that register in either dialect.

`Machine.DifferInDialect` is the relation between the two machines. It is kept by every instruction
that the dialects do not tell apart (`keeps_differInDialect`), and `Alike.after_of_same` brings
this to histories. The two histories are the same calls, and, without a seed, have the same entropy
in them (`not_dialect_changes_what_it_names_of_bare`). That a machine always has the dialect that
its console was created with (`Reachable.dialect_eq`) is what a load and a reset rest on: they take
the dialect from the configuration.
-/

set_option autoImplicit false

namespace Chip8

open Machine (Component)

/-! ### Operations in two dialects -/

/-- A register operation comes out alike in two dialects that agree in the switch that it looks at.
A shift need not be looked at if both its operands are the same byte. -/
theorem AluOp.eval_of_agree {op : AluOp} {d d' : Dialect} {a b : UInt8}
    (hlogic : op ∈ [.or, .and, .xor] → d.logicClearsFlag = d'.logicClearsFlag)
    (hshift : op ∈ [.shiftRight, .shiftLeft] → a ≠ b →
      d.shiftReadsSecond = d'.shiftReadsSecond) :
    op.eval d a b = op.eval d' a b := by
  cases op with
  | or | and | xor => simp [eval, hlogic (by simp)]
  | shiftRight | shiftLeft =>
    by_cases hab : a = b
    · simp [eval, hab]
    · simp [eval, hshift (by simp) hab]
  | _ => rfl

/-- Two machines with these dialects that agree in everything else. -/
structure Machine.DifferInDialect (d d' : Dialect) (m n : Machine) : Prop where
  agree : AgreeExcept [.dialect] m n
  left : m.dialect = d
  right : n.dialect = d'

namespace Instruction

/-- The two dialects do the same with the instruction: they agree in the switch that it looks at, or
it is a shift of a register into itself. -/
def DoneAlike (d d' : Dialect) (instr : Instruction) : Prop :=
  ∀ op x y, instr = .alu op x y →
    (op ∈ [.or, .and, .xor] → d.logicClearsFlag = d'.logicClearsFlag) ∧
    (op ∈ [.shiftRight, .shiftLeft] → x ≠ y → d.shiftReadsSecond = d'.shiftReadsSecond)

/-- Such an instruction keeps two machines that differ in their dialects. -/
theorem keeps_differInDialect {d d' : Dialect} {instr : Instruction}
    (h : instr.DoneAlike d d') : instr.Keeps (Machine.DifferInDialect d d') := by
  intro m n hmn
  have hagree (p : Component) (hp : p ∉ [.dialect]) : p.Same m.advance n.advance :=
    (hmn.agree p hp).advance
  refine ⟨fun p hp => ?_, (instr.dialect_execute _).trans hmn.left,
    (instr.dialect_execute _).trans hmn.right⟩
  refine same_execute_of_changes (hagree p hp) fun hchanges => ?_
  by_cases hreads : .dialect ∈ instr.reads
  · -- Only a register operation reads the dialect, and it changes the registers alone.
    obtain ⟨op, x, y, rfl, -⟩ := dialect_mem_reads_iff.mp hreads
    obtain rfl : p = .registers := by simpa [changes] using hchanges
    obtain ⟨hlogic, hshift⟩ := h op x y rfl
    refine Machine.registers_combine_congr (hagree .registers hp) ?_
    rw [show m.advance.dialect = d from hmn.left, show n.advance.dialect = d' from hmn.right]
    refine AluOp.eval_of_agree hlogic fun hop hbytes => hshift hop fun hxy => ?_
    exact hbytes (hxy ▸ rfl)
  · refine same_execute_of_mem_changes (fun q hq => hagree q fun hdialect => ?_) hchanges
      (hagree p hp)
    exact hreads (List.mem_singleton.mp hdialect ▸ hq)

end Instruction

namespace Machine

/-- The dialect decides nothing of a fresh machine but its dialect. -/
theorem agreeExcept_fresh_withDialect (config : Config) (dialect : Dialect)
    (entropy : Random.Key) :
    AgreeExcept [.dialect] (fresh config entropy)
      (fresh (config.withDialect dialect) entropy) := by
  intro p hp
  cases p <;> simp_all [Component.Same, fresh, Config.withDialect]

/-- The press of a key leaves the dialect. -/
theorem dialect_press (m : Machine) (k : UInt8) : (m.press k).machine.dialect = m.dialect :=
  Outcome.ofPart_keeps Machine.dialect fun _ => rfl

/-- So does the release of a key. -/
theorem dialect_release (m : Machine) (k : UInt8) : (m.release k).machine.dialect = m.dialect :=
  Outcome.ofPart_keeps Machine.dialect fun _ => rfl

/-- So two consoles whose configurations differ in the dialect are in lockstep. -/
theorem lockstep_differInDialect (config : Config) (dialect : Dialect) :
    Lockstep (DifferInDialect config.dialect dialect) config (config.withDialect dialect) := by
  have hagree : Lockstep (AgreeExcept [.dialect]) config (config.withDialect dialect) :=
    lockstep_agreeExcept (by simp) (agreeExcept_fresh_withDialect config dialect)
  exact {
    memory_eq := fun h => hagree.memory_eq h.agree
    pc_eq := fun h => hagree.pc_eq h.agree
    index_eq := fun h => hagree.index_eq h.agree
    calls_eq := fun h => hagree.calls_eq h.agree
    screen_eq := fun h => hagree.screen_eq h.agree
    tick := fun h => ⟨hagree.tick h.agree, h.left, h.right⟩
    press := fun {m n} h k => ⟨hagree.press h.agree k, (m.dialect_press k).trans h.left,
      (n.dialect_press k).trans h.right⟩
    release := fun {m n} h k => ⟨hagree.release h.agree k, (m.dialect_release k).trans h.left,
      (n.dialect_release k).trans h.right⟩
    loaded := fun program entropy => ⟨hagree.loaded program entropy, rfl, rfl⟩ }

/-- Of two machines that differ in the dialect, the second is the first with its own. -/
theorem DifferInDialect.eq {d d' : Dialect} {m n : Machine} (h : DifferInDialect d d' m n) :
    n = { m with dialect := d' } := by
  refine (h.agree.eq_replace).trans ?_
  simp [replace, h.right]

end Machine

namespace Console

/-! ### The dialect of a console -/

/-- A history leaves the machine with the dialect of the configuration. -/
theorem dialect_after {c : Console} (h : c.machine.dialect = c.config.dialect)
    (calls : List Call) :
    (c.after calls).machine.dialect = (c.after calls).config.dialect := by
  -- A load takes the dialect from the configuration.
  refine events_induction (P := fun _ d => d.machine.dialect = d.config.dialect)
    (fun _ _ _ _ _ => rfl) (fun _ d instr ih hresult => ?_) (fun _ _ ih => ih)
    (fun _ _ _ _ _ ih => ih) h calls
  rw [console_step_of_ok hresult]
  exact (instr.dialect_execute _).trans ih

/-- Every machine that can be reached has the dialect of its configuration. -/
theorem Reachable.dialect_eq {c : Console} (h : c.Reachable) :
    c.machine.dialect = c.config.dialect := by
  induction h with
  | create config entropy => rfl
  | @createWith config program entropy _ =>
    exact dialect_after (c := ofConfig config entropy) rfl [.load program entropy]
  | perform _ call ih => exact dialect_after ih [call]

/-! ### Two dialects -/

/-- The dialect changes what its switches name, and nothing else. Take two consoles that are equal
but for their dialects, each with a machine that has the dialect of its configuration, and two
histories of the same calls. Suppose that the consoles have a seed, or that the loads and resets of
the two histories are given the same entropy (`Call.heard`). If the dialects agree in how logic
operations treat the flag as soon as a step of the first console executes one, and in what shifts
read as soon as a step shifts one register into another, then every call has the same result on
both, and afterwards the consoles are equal but for their dialects. And every machine that can be
reached has the dialect of its configuration. -/
theorem dialect_changes_what_it_names (c : Console) (dialect : Dialect)
    (calls calls' : List Call) :
    let config := c.config.withDialect dialect
    let d := { c with config, machine := { c.machine with dialect } }
    (c.machine.dialect = c.config.dialect →
      calls.map (Call.heard c.config) = calls'.map (Call.heard c.config) →
      (∀ op x y before after, .executed (.alu op x y) before after ∈ c.events calls →
        (op ∈ [.or, .and, .xor] →
          c.config.dialect.logicClearsFlag = dialect.logicClearsFlag) ∧
        (op ∈ [.shiftRight, .shiftLeft] → x ≠ y →
          c.config.dialect.shiftReadsSecond = dialect.shiftReadsSecond)) →
      c.answers (fun _ => true) calls = d.answers (fun _ => true) calls' ∧
      d.after calls' = { c.after calls with
        config, machine := { (c.after calls).machine with dialect } }) ∧
    ∀ e : Console, e.Reachable → e.machine.dialect = e.config.dialect := by
  intro config d
  refine ⟨?_, fun e => Reachable.dialect_eq⟩
  intro hdialect hsame hnamed
  have hcd : Alike (Machine.DifferInDialect c.config.dialect dialect) c.config config c d := by
    refine ⟨⟨fun p hp => ?_, hdialect, rfl⟩, rfl, rfl, rfl, rfl⟩
    cases p <;> simp_all [Component.Same, d]
  have hkeeps : ∀ instr before after, .executed instr before after ∈ c.events calls →
      instr.Keeps (Machine.DifferInDialect c.config.dialect dialect) := by
    intro instr before after hmem
    refine Instruction.keeps_differInDialect ?_
    rintro op x y rfl
    exact hnamed op x y before after hmem
  obtain ⟨hanswers, halike⟩ :=
    hcd.after_of_same (Machine.lockstep_differInDialect c.config dialect) rfl hsame hkeeps
  exact ⟨hanswers, halike.eq halike.machine.eq⟩

/-- A program that shifts a register into itself, left and right, and adds another one to it. -/
def shifting : List UInt8 := [0x61, 0x85, 0x81, 0x1E, 0x81, 0x16, 0x81, 0x04]

/-- Two steps of it, and after a reset all of it. -/
def shiftingCalls (entropy : Random.Key) : List Call :=
  [.step, .step, .press 0x7, .reset entropy, .runFrame 4, .takeScreen]

/-- With a seed, the program runs alike in the dialect that has both switches the other way, across
a reset that is given other entropy, which leaves each console its own dialect. -/
theorem dialect_changes_what_it_names_shifting :
    let c := (createWith (Config.withSeed {} 7) shifting .zero).console
    let dialect : Dialect := ⟨true, true⟩
    let config := c.config.withDialect dialect
    let d := { c with config, machine := { c.machine with dialect } }
    let calls := shiftingCalls .zero
    let calls' := shiftingCalls (.replicate 8 1)
    let e := (createWith config shifting .zero).console.after [.runFrame 2, .reset .zero]
    c.machine.dialect = c.config.dialect ∧
    c.answers (fun _ => true) calls = d.answers (fun _ => true) calls' ∧
    d.after calls' = { c.after calls with
      config, machine := { (c.after calls).machine with dialect } } ∧
    e.Reachable ∧ e.machine.dialect = dialect := by
  intro c dialect config d calls calls' e
  obtain ⟨halike, hreachable⟩ := dialect_changes_what_it_names c dialect calls calls'
  have hdialect : c.machine.dialect = c.config.dialect := by decide +kernel
  have hexecuted : (c.events calls).filterMap Event.instruction?
      = [.load 1 0x85, .alu .shiftLeft 1 1, .load 1 0x85, .alu .shiftLeft 1 1,
        .alu .shiftRight 1 1, .alu .add 1 0] := by decide +kernel
  obtain ⟨hanswers, hlast⟩ := halike hdialect (by decide) fun op x y before after hmem => by
    have hmem := Event.mem_filterMap_instruction? hmem
    rw [hexecuted] at hmem
    simp only [List.mem_cons, Instruction.alu.injEq, reduceCtorEq, List.not_mem_nil, or_false,
      false_or] at hmem
    rcases hmem with ⟨rfl, rfl, rfl⟩ | ⟨rfl, rfl, rfl⟩ | ⟨rfl, rfl, rfl⟩ | ⟨rfl, rfl, rfl⟩
    all_goals simp
  have he : e.Reachable := (Reachable.createWith (by decide +kernel)).after _
  exact ⟨hdialect, hanswers, hlast, he, (hreachable e he).trans (by decide +kernel)⟩

/-- Without a seed, it is not enough that the calls are the same but for entropy, whatever the
dialects. -/
theorem not_dialect_changes_what_it_names_of_bare :
    ¬ ∀ (c : Console) (dialect : Dialect) (calls calls' : List Call),
      let config := c.config.withDialect dialect
      let d := { c with config, machine := { c.machine with dialect } }
      c.machine.dialect = c.config.dialect →
      calls.map Call.bare = calls'.map Call.bare →
      (∀ op x y before after, .executed (.alu op x y) before after ∈ c.events calls →
        (op ∈ [.or, .and, .xor] →
          c.config.dialect.logicClearsFlag = dialect.logicClearsFlag) ∧
        (op ∈ [.shiftRight, .shiftLeft] → x ≠ y →
          c.config.dialect.shiftReadsSecond = dialect.shiftReadsSecond)) →
      c.answers (fun _ => true) calls = d.answers (fun _ => true) calls' ∧
      d.after calls' = { c.after calls with
        config, machine := { (c.after calls).machine with dialect } } := by
  intro h
  obtain ⟨-, hlast⟩ := h (ofConfig {} .zero) ⟨true, true⟩ (drawOnce .zero)
    (drawOnce (.replicate 8 1)) rfl rfl fun op x y before after hmem => by
      have hmem := Event.mem_filterMap_instruction? hmem
      rw [instructions_drawOnce] at hmem
      simp at hmem
  have hregisters := congrArg (·.machine.registers) hlast
  dsimp only at hregisters
  exact registers_drawOnce_ne rfl rfl hregisters

end Console

end Chip8
