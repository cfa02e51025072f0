import Chip8.Proofs.Steering
import Chip8.Proofs.Truncation
import Mathlib.Data.Set.Function

/-!
# `Chip8.Proofs.Correspondence`: opcodes and instructions, one to one

An opcode that stands for an instruction stands for one whose operands fit their fields
(`Instruction.Fits`) and which no other opcode shadows. Among these instructions every one has its
own opcode, so reading and writing are inverse to each other: `decode?_eq_some_iff` says when an
opcode is read as an instruction, and `bijOn_opcode` that writing is a bijection between these
instructions and the opcodes that stand for one.

The operands that do not fit are cut, which `cut_eq_self_iff` relates to fitting. A step answers
with the instruction that it read, so its opcode can be written again from the answer
(`Console.fetch_of_step_ok`).
-/

set_option autoImplicit false

namespace Chip8

/-! ### Operands that fit -/

/-- Cutting to a nibble keeps exactly the bytes that are nibbles. -/
theorem mod_nibble_eq_self_iff (x : UInt8) : x % 0x10 = x ↔ x.toNat < 0x10 := by
  rw [← UInt8.toNat_inj, UInt8.toNat_mod]
  show x.toNat % 0x10 = x.toNat ↔ _
  omega

/-- Cutting to twelve bits keeps exactly the addresses of twelve bits. -/
theorem mod_address_eq_self_iff (a : UInt16) : a % 0x1000 = a ↔ a.toNat < 0x1000 := by
  rw [← UInt16.toNat_inj, UInt16.toNat_mod]
  show a.toNat % 0x1000 = a.toNat ↔ _
  omega

namespace Instruction

/-- Every operand fits its field. The bytes always do. -/
structure Fits (instr : Instruction) : Prop where
  nibble_lt : ∀ x ∈ instr.nibbles, x.toNat < 0x10
  address_lt : ∀ a ∈ instr.address?, a.toNat < 0x1000

/-- An instruction fits if each of its nibbles and its address do. -/
theorem fits_iff (instr : Instruction) :
    instr.Fits ↔ (∀ x ∈ instr.nibbles, x.toNat < 0x10) ∧
      ∀ a ∈ instr.address?, a.toNat < 0x1000 :=
  ⟨fun h => ⟨h.nibble_lt, h.address_lt⟩, fun ⟨hnibbles, haddress⟩ => ⟨hnibbles, haddress⟩⟩

/-- What fits is not changed by cutting it, and nothing else is left as it is. -/
theorem cut_eq_self_iff (instr : Instruction) : instr.cut = instr ↔ instr.Fits := by
  rw [fits_iff]
  cases instr with
  | skip condition =>
    cases condition <;>
      simp [cut, Condition.cut, nibbles, Condition.nibbles, address?, mod_nibble_eq_self_iff]
  | _ => simp [cut, nibbles, address?, mod_nibble_eq_self_iff, mod_address_eq_self_iff]

/-! ### Shadowed routines -/

/-- The shadowed instructions are the system calls whose address is the code of another instruction.
-/
theorem isShadowed_iff (instr : Instruction) :
    instr.isShadowed = true ↔
      ∃ a, instr = .system a ∧ (a % 0x1000 = 0x0E0 ∨ a % 0x1000 = 0x0EE) := by
  cases instr <;> simp [isShadowed]

/-- What a shadowed routine reads back as is no machine routine. -/
theorem reread_ne_of_isShadowed {instr : Instruction} (h : instr.isShadowed = true) :
    instr.reread ≠ instr := by
  obtain ⟨a, rfl, hclear | hret⟩ := instr.isShadowed_iff.mp h
  · simp [reread, ofSystemCode, hclear]
  · simp [reread, ofSystemCode, hret]

/-! ### Reading and writing -/

/-- What an opcode stands for fits its fields, and is not shadowed. -/
theorem fits_of_decode? {w : Opcode} {instr : Instruction} (h : decode? w = some instr) :
    instr.Fits ∧ instr.isShadowed = false := by
  have hreread : instr.reread = instr := reread_of_decode? h
  have hplain : instr.isShadowed = false :=
    Bool.eq_false_iff.mpr fun hshadow => reread_ne_of_isShadowed hshadow hreread
  refine ⟨instr.cut_eq_self_iff.mp ?_, hplain⟩
  rw [← reread_of_not_isShadowed hplain]
  exact hreread

/-- Where no other opcode is in the way, an instruction is read back with its operands cut. -/
theorem decode?_opcode_of_not_isShadowed {instr : Instruction} (h : instr.isShadowed = false) :
    decode? instr.opcode = some instr.cut := by
  rw [decode?_opcode, reread_of_not_isShadowed h]

/-- An opcode stands for an instruction exactly if it is the opcode of that instruction, and the
instruction fits and is not shadowed. -/
theorem decode?_eq_some_iff (w : Opcode) (instr : Instruction) :
    decode? w = some instr ↔ instr.opcode = w ∧ instr.Fits ∧ instr.isShadowed = false := by
  constructor
  · intro h
    exact ⟨opcode_of_decode? h, fits_of_decode? h⟩
  · rintro ⟨rfl, hfits, hplain⟩
    rw [decode?_opcode_of_not_isShadowed hplain, instr.cut_eq_self_iff.mpr hfits]

/-- Writing is a bijection between the instructions that fit and are not shadowed, and the opcodes
that stand for an instruction. -/
theorem bijOn_opcode :
    Set.BijOn opcode {instr | instr.Fits ∧ instr.isShadowed = false}
      {w | (decode? w).isSome} := by
  have hread {instr : Instruction} (h : instr.Fits ∧ instr.isShadowed = false) :
      decode? instr.opcode = some instr := (decode?_eq_some_iff _ instr).mpr ⟨rfl, h⟩
  refine ⟨?_, ?_, ?_⟩
  · intro instr h
    exact Option.isSome_of_eq_some (hread h)
  · intro instr h instr' h' hsame
    -- One opcode cannot be read as two instructions.
    have hopcode : decode? instr.opcode = decode? instr'.opcode := congrArg decode? hsame
    rw [hread h, hread h'] at hopcode
    exact Option.some.inj hopcode
  · intro w hw
    obtain ⟨instr, hinstr⟩ := Option.isSome_iff_exists.mp hw
    obtain ⟨hopcode, h⟩ := (decode?_eq_some_iff w instr).mp hinstr
    exact ⟨instr, h, hopcode⟩

end Instruction

/-- A step that succeeds answers with the instruction whose opcode it fetched. -/
theorem Console.fetch_of_step_ok {c : Console} {instr : Instruction}
    (h : c.step.result = .ok instr) : c.fetch = .ok instr.opcode := by
  obtain ⟨opcode, hfetch, hdecode, -, -⟩ := step_of_ok h
  rw [Instruction.opcode_of_decode? hdecode]
  exact hfetch

namespace Instruction

/-- Reading and writing opcodes are inverse to each other up to the cutting of operands. An opcode
that stands for an instruction is the opcode of that instruction, whose operands fit their fields.
The opcode of any instruction, with operands as wide as they may be, is read back as the instruction
with its operands cut, unless it is a machine routine whose address, cut, is that of clear or of
return: then it is read back as these. So writing is a bijection between the instructions that fit
and are not among these routines, and the opcodes that stand for an instruction, and reading is its
inverse. And a step that succeeds answers with the instruction whose opcode it fetched. -/
theorem decoding_inverts_encoding :
    (∀ w instr, decode? w = some instr → instr.opcode = w ∧
      (∀ x ∈ instr.nibbles, x.toNat < 0x10) ∧ ∀ a ∈ instr.address?, a.toNat < 0x1000) ∧
    (∀ instr : Instruction,
      (¬ ∃ a, instr = .system a ∧ (a % 0x1000 = 0x0E0 ∨ a % 0x1000 = 0x0EE)) →
      decode? instr.opcode = some instr.cut) ∧
    (∀ a, a % 0x1000 = 0x0E0 → decode? (system a).opcode = some .clearScreen) ∧
    (∀ a, a % 0x1000 = 0x0EE → decode? (system a).opcode = some .ret) ∧
    Set.BijOn opcode {instr | instr.Fits ∧ instr.isShadowed = false} {w | (decode? w).isSome} ∧
    (∀ w instr, decode? w = some instr ↔
      instr.opcode = w ∧ instr.Fits ∧ instr.isShadowed = false) ∧
    ∀ (c : Console) instr, c.step.result = .ok instr → c.fetch = .ok instr.opcode := by
  refine ⟨?_, ?_, ?_, ?_, bijOn_opcode, decode?_eq_some_iff, fun c instr =>
    Console.fetch_of_step_ok⟩
  · intro w instr h
    exact ⟨opcode_of_decode? h, instr.fits_iff.mp (fits_of_decode? h).1⟩
  · intro instr h
    refine decode?_opcode_of_not_isShadowed (Bool.eq_false_iff.mpr fun hshadow => h ?_)
    exact instr.isShadowed_iff.mp hshadow
  · intro a h
    rw [decode?_opcode, reread, h]
    rfl
  · intro a h
    rw [decode?_opcode, reread, h]
    rfl

/-- A program that draws. -/
def drawingProgram : List UInt8 := [0xD1, 0x25]

/-- A sprite that is too high is cut to no row at all, and the registers to other ones. A machine
routine one address behind that of clear stays one, and an address with a digit in front of that of
return is read back as return. -/
theorem decoding_inverts_encoding_wideOperands :
    let c := (Console.createWith {} drawingProgram).console
    ((draw 1 2 0).opcode = 0xD120 ∧ ∀ x ∈ (draw 1 2 0).nibbles, x.toNat < 0x10) ∧
    decode? (draw 0x31 0x12 0xF0).opcode = some (.draw 1 2 0) ∧
    decode? (system 0x10E1).opcode = some (.system 0x0E1) ∧
    decode? (system 0x50E0).opcode = some .clearScreen ∧
    decode? (system 0x50EE).opcode = some .ret ∧
    c.step.result = .ok (.draw 1 2 5) ∧ c.fetch = .ok (draw 1 2 5).opcode := by
  intro c
  have hdecode : decode? 0xD120 = some (.draw 1 2 0) := rfl
  have hstep : c.step.result = .ok (.draw 1 2 5) := by decide +kernel
  obtain ⟨hwrite, hread, hclear, hret, -, -, hfetch⟩ := decoding_inverts_encoding
  obtain ⟨hopcode, hnibbles, -⟩ := hwrite _ _ hdecode
  refine ⟨⟨hopcode, hnibbles⟩, ?_, ?_, hclear 0x50E0 rfl, hret 0x50EE rfl, hstep,
    hfetch c _ hstep⟩
  · exact hread (draw 0x31 0x12 0xF0) (by simp)
  · refine hread (system 0x10E1) ?_
    rintro ⟨a, h, hcode⟩
    cases h
    exact absurd hcode (by decide)

end Instruction

end Chip8
