import Chip8.Console

/-!
# `Chip8.Proofs.Load`: what a load leaves

A load either puts its program into the memory of a fresh machine or changes nothing, and
the length of the program decides which (`Console.load_of_fits`, `Console.load_of_large`).
`Console.loaded` is the console after the first, written out: of the console before, it
holds the configuration and nothing else. `Memory.getElem?_ofProgram` reads its memory
byte by byte.

The entropy that a fresh machine is given decides its random bytes and nothing else, and
with a seed not even these (`Machine.fresh_of_seed`).
-/

set_option autoImplicit false

namespace Chip8

namespace Memory

/-- Memory that holds a program in its place and zeros everywhere else. -/
def ofProgram (program : List UInt8) : Memory := zero.store programStart program

/-- The byte at address `k`: the one of the program that belongs there, or zero. -/
theorem getElem?_ofProgram (program : List UInt8) {k : Nat} (hk : k < 4096) :
    (ofProgram program).bytes[k]?
      = some (if 0x200 ≤ k then program[k - 0x200]?.getD 0 else 0) := by
  have hzero : zero.bytes[k]? = some 0 := by simp [zero, hk]
  rw [ofProgram, getElem?_store, hzero]
  show (if 0x200 ≤ k ∧ k < 0x200 + program.length ∧ k < 4096 then program[k - 0x200]?
    else some 0) = _
  -- Below the program, in it, or behind it.
  by_cases hstart : 0x200 ≤ k
  · rw [if_pos hstart]
    by_cases hend : k < 0x200 + program.length
    · rw [if_pos ⟨hstart, hend, hk⟩, List.getElem?_eq_getElem (by omega)]
      rfl
    · rw [if_neg fun h => hend h.2.1, List.getElem?_eq_none (by omega)]
      rfl
  · rw [if_neg fun h => hstart h.1, if_neg hstart]

/-- A program within the limit is stored in its place. -/
theorem load_of_fits (m : Memory) {program : List UInt8} (h : program.length ≤ programLimit) :
    m.load program = .ok (m.store programStart program) := by
  have hend : programStart + program.length ≤ size := by
    simp only [programLimit, programStart, size] at h ⊢
    omega
  rw [load, if_neg (by omega), write]
  -- The empty program is not written at all, which leaves the same memory.
  by_cases hempty : program = []
  · rw [if_pos hempty, hempty]
    rfl
  · rw [if_neg hempty, if_neg (Nat.lt_irrefl _), if_pos hend]

/-- A program over the limit is refused. -/
theorem load_of_large (m : Memory) {program : List UInt8} (h : programLimit < program.length) :
    m.load program = .error (.programTooLarge program.length programLimit) := by
  rw [load, if_pos h]

end Memory

/-- With a seed, a fresh machine is the same whatever the entropy. -/
theorem Machine.fresh_of_seed {config : Config} {seed : UInt64} (h : config.seed = some seed)
    (entropy entropy' : Random.Key) : fresh config entropy = fresh config entropy' := by
  simp only [fresh, Random.start, h, Option.map_some, Option.getD_some]

namespace Console

/-- The console after a load that succeeded. -/
def loaded (config : Config) (program : List UInt8) (entropy : Random.Key) : Console where
  machine := { Machine.fresh config entropy with memory := .ofProgram program }
  redraw := true
  config
  program

/-- A program within the limit is loaded into a fresh machine. -/
theorem load_of_fits (c : Console) {program : List UInt8}
    (h : program.length ≤ Memory.programLimit) (entropy : Random.Key) :
    c.load program entropy
      = ⟨.ok (), loaded c.config program entropy, [.loaded program.length]⟩ := by
  have hmem := (Machine.fresh c.config entropy).memory.load_of_fits h
  simp only [load, Machine.load, Outcome.ofPart, hmem]
  rfl

/-- A program over the limit is refused, and the console stays as it was. -/
theorem load_of_large (c : Console) {program : List UInt8}
    (h : Memory.programLimit < program.length) (entropy : Random.Key) :
    c.load program entropy
      = ⟨.error (.programTooLarge program.length Memory.programLimit), c, []⟩ := by
  have hmem := (Machine.fresh c.config entropy).memory.load_of_large h
  simp only [load, Machine.load, Outcome.ofPart, hmem]

/-- With a seed, a load leaves the same whatever the entropy. -/
theorem loaded_of_seed {config : Config} {seed : UInt64} (h : config.seed = some seed)
    (program : List UInt8) (entropy entropy' : Random.Key) :
    loaded config program entropy = loaded config program entropy' := by
  simp only [loaded, Machine.fresh_of_seed h entropy entropy']

end Console

end Chip8
