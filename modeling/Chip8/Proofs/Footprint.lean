import Chip8.Proofs.Encoding
import Chip8.Proofs.Execute
import Mathlib.Tactic.Common

/-!
# `Chip8.Proofs.Footprint`: the part of the machine that is an instruction's own

`Instruction.changes` lists the components that an instruction may change. Here the list is turned
around, component by component: which instructions may change this one (`…_mem_changes_iff`). Two
components have parts of their own. Of memory, an instruction changes the bytes that it writes and
no others. Of the registers, it changes those that `Instruction.setsRegister` lists: mostly the
first register that it names, and in some cases the flag.

`Instruction.Frame` puts this together, and `execute_in_frame` says that every instruction stays in
its frame, with operands of any width. An instruction that fails stays in it too, since it leaves
the whole machine alone.
-/

set_option autoImplicit false

namespace Chip8

open Machine (Component)
open Registers (slot flag)

/-! ### Registers -/

namespace Registers

/-- The flag is written to the last register, and the others keep theirs. -/
theorem get_setFlag_of_ne (r : Registers) (raised : Bool) {y : UInt8} (h : slot y ≠ slot flag) :
    (r.setFlag raised).get y = r.get y := by
  rw [setFlag, get_set, if_neg h]

/-- Filling the registers leaves those behind the bytes alone. -/
theorem get_fill_of_le (r : Registers) {bytes : List UInt8} {y : UInt8}
    (h : bytes.length ≤ slot y) : (r.fill bytes).get y = r.get y := by
  rw [get_fill, List.getElem?_eq_none h]
  rfl

end Registers

/-- Whether the operation writes the flag, which for three of them is up to the dialect. -/
def AluOp.setsFlag (d : Dialect) : AluOp → Bool
  | .copy => false
  | .or | .and | .xor => d.logicClearsFlag
  | .add | .sub | .shiftRight | .subFrom | .shiftLeft => true

/-- Sums, differences and shifts set the flag, and the operations on bits do if the dialect has them
clear it. -/
theorem AluOp.setsFlag_iff {op : AluOp} {d : Dialect} :
    op.setsFlag d = true ↔ op ∈ [.add, .sub, .subFrom, .shiftRight, .shiftLeft] ∨
      (op ∈ [.or, .and, .xor] ∧ d.logicClearsFlag = true) := by
  cases op <;> simp [setsFlag]

/-- An operation that does not set the flag yields no flag. -/
theorem AluOp.eval_of_not_setsFlag {op : AluOp} {d : Dialect} (h : op.setsFlag d = false)
    (a b : UInt8) : (op.eval d a b).2 = none := by
  cases op <;> simp_all [setsFlag, eval]

/-- An operation on two registers changes the first of them, and the flag if it sets it. -/
theorem Machine.get_combine (m : Machine) {op : AluOp} {x y r : UInt8} (hx : slot r ≠ slot x)
    (hflag : op.setsFlag m.dialect = true → slot r ≠ slot flag) :
    (m.combine op x y).registers.get r = m.registers.get r := by
  have hset (value : UInt8) : (m.setRegister x value).registers.get r = m.registers.get r := by
    rw [setRegister, Registers.get_set, if_neg hx]
  unfold combine
  cases hsets : op.setsFlag m.dialect with
  | false =>
    simp only [AluOp.eval_of_not_setsFlag hsets]
    exact hset _
  | true =>
    dsimp only
    split
    · exact (Registers.get_setFlag_of_ne _ _ (hflag hsets)).trans (hset _)
    · exact hset _

namespace Instruction

/-- The instruction may put a byte into register `r`. -/
def setsRegister (d : Dialect) (r : Fin 16) : Instruction → Prop
  | .load x _ | .addByte x _ | .random x _ | .readDelay x | .awaitKey x => r = slot x
  | .alu op x _ => r = slot x ∨ (op.setsFlag d = true ∧ r = slot flag)
  | .draw .. => r = slot flag
  | .loadRegisters x => r ≤ slot x
  | _ => False

/-- An instruction leaves every register alone that it does not set. -/
theorem get_execute {instr : Instruction} {m : Machine} {r : UInt8}
    (h : ¬ instr.setsRegister m.dialect (slot r)) :
    (instr.execute m).machine.registers.get r = m.registers.get r := by
  cases instr with
  | load x value | addByte x value | readDelay x =>
    exact (Registers.get_set _ _ _ _).trans (if_neg h)
  | random x mask => exact (Registers.get_set _ _ _ _).trans (if_neg h)
  | alu op x y =>
    obtain ⟨hx, hflag⟩ := not_or.mp h
    exact m.get_combine hx fun hsets hr => hflag ⟨hsets, hr⟩
  | draw x y height =>
    exact Outcome.ofPart_keeps (fun m => m.registers.get r) fun _ =>
      Registers.get_setFlag_of_ne _ _ h
  | awaitKey x =>
    simp only [execute]
    split
    · exact (Registers.get_set _ _ _ _).trans (if_neg h)
    · rfl
  | loadRegisters x =>
    show (m.loadRegisters x).machine.registers.get r = _
    unfold Machine.loadRegisters
    cases hread : m.memory.read m.index.toNat (slot x + 1) with
    | error fault => rfl
    | ok bytes =>
      refine Registers.get_fill_of_le _ ?_
      rw [Memory.length_of_read hread]
      exact Nat.lt_of_not_le h
  | _ =>
    refine congrArg (Registers.get · r) (same_execute (p := .registers) ?_ m)
    simp [changes]

/-! ### Who changes a component -/

/-- The instructions that change registers. -/
theorem registers_mem_changes_iff {instr : Instruction} :
    .registers ∈ instr.changes ↔
      (∃ x value, instr = .load x value ∨ instr = .addByte x value ∨ instr = .random x value) ∨
      (∃ op x y, instr = .alu op x y) ∨ (∃ x y height, instr = .draw x y height) ∨
      ∃ x, instr = .readDelay x ∨ instr = .awaitKey x ∨ instr = .loadRegisters x := by
  cases instr <;> simp [changes]

/-- The instructions that change the index. -/
theorem index_mem_changes_iff {instr : Instruction} :
    .index ∈ instr.changes ↔ (∃ a, instr = .setIndex a) ∨ ∃ x, instr = .addIndex x := by
  cases instr <;> simp [changes]

/-- The instructions that move the program counter themselves. -/
theorem pc_mem_changes_iff {instr : Instruction} :
    .pc ∈ instr.changes ↔
      (∃ a, instr = .jump a ∨ instr = .jumpOffset a ∨ instr = .call a) ∨ instr = .ret ∨
      (∃ condition, instr = .skip condition) ∨ ∃ x, instr = .awaitKey x := by
  cases instr <;> simp [changes]

/-- The instructions that change the open calls. -/
theorem calls_mem_changes_iff {instr : Instruction} :
    .calls ∈ instr.changes ↔ (∃ a, instr = .call a) ∨ instr = .ret := by
  cases instr <;> simp [changes]

/-- The delay timer is changed by the instruction that sets it, and by no other. -/
theorem delay_mem_changes_iff {instr : Instruction} :
    .delay ∈ instr.changes ↔ ∃ x, instr = .setDelay x := by
  cases instr <;> simp [changes]

/-- The sound timer is changed by the instruction that sets it, and by no other. -/
theorem sound_mem_changes_iff {instr : Instruction} :
    .sound ∈ instr.changes ↔ ∃ x, instr = .setSound x := by
  cases instr <;> simp [changes]

/-- The instructions that change the screen. -/
theorem screen_mem_changes_iff {instr : Instruction} :
    .screen ∈ instr.changes ↔ instr = .clearScreen ∨ ∃ x y height, instr = .draw x y height := by
  cases instr <;> simp [changes]

/-- Random bytes are drawn by the instruction for them, and by no other. -/
theorem random_mem_changes_iff {instr : Instruction} :
    .random ∈ instr.changes ↔ ∃ x mask, instr = .random x mask := by
  cases instr <;> simp [changes]

/-- A component that an instruction did change is one that it may change. -/
theorem mem_changes_of_not_same {instr : Instruction} {p : Component} {m : Machine}
    (h : ¬ p.Same (instr.execute m).machine m) : p ∈ instr.changes := by
  by_contra hkept
  exact h (same_execute hkept m)

/-! ### Bytes and registers that changed -/

/-- A byte of memory that changed is one that the instruction stored. -/
theorem stored_of_ne {instr : Instruction} {m : Machine} {k : Nat}
    (h : (instr.execute m).machine.memory.bytes[k]? ≠ m.memory.bytes[k]?) :
    m.index.toNat ≤ k ∧ k < m.index.toNat + instr.bytesWritten := by
  constructor
  · by_contra hk
    exact h (getElem?_memory_execute instr m (.inl (Nat.lt_of_not_le hk)))
  · by_contra hk
    exact h (getElem?_memory_execute instr m (.inr (Nat.le_of_not_lt hk)))

/-- A register that changed is one that the instruction sets. -/
theorem setsRegister_of_ne {instr : Instruction} {m : Machine} {r : UInt8}
    (h : (instr.execute m).machine.registers.get r ≠ m.registers.get r) :
    instr.setsRegister m.dialect (slot r) := by
  by_contra hkept
  exact h (get_execute hkept)

/-- The first register that the instruction names. -/
def firstRegister? (instr : Instruction) : Option UInt8 := instr.nibbles.head?

/-- A register that an instruction sets is its first operand, the flag register, or one that is
filled from memory. -/
theorem setsRegister_cases {instr : Instruction} {d : Dialect} {r : Fin 16}
    (h : instr.setsRegister d r) :
    (∃ x, instr.firstRegister? = some x ∧ r = slot x) ∨ r = slot flag ∨
      ∃ x, instr = .loadRegisters x ∧ r ≤ slot x := by
  cases instr with
  | load x | addByte x | random x | readDelay x | awaitKey x => exact .inl ⟨x, rfl, h⟩
  | alu op x y =>
    rcases h with hx | ⟨-, hflag⟩
    · exact .inl ⟨x, rfl, hx⟩
    · exact .inr (.inl hflag)
  | draw x y height => exact .inr (.inl h)
  | loadRegisters x => exact .inr (.inr ⟨x, rfl, h⟩)
  | _ => exact h.elim

/-- The flag is set by operations that set it and by drawing, unless it is the first register. -/
theorem setsRegister_flag {instr : Instruction} {d : Dialect}
    (h : instr.setsRegister d (slot flag))
    (hfirst : ∀ x, instr.firstRegister? = some x → slot x ≠ slot flag) :
    (∃ op x y, instr = .alu op x y ∧ op.setsFlag d = true) ∨
      ∃ x y height, instr = .draw x y height := by
  cases instr with
  | load x | addByte x | random x | readDelay x | awaitKey x => exact absurd h.symm (hfirst x rfl)
  | alu op x y =>
    rcases h with hx | ⟨hsets, -⟩
    · exact absurd hx.symm (hfirst x rfl)
    · exact .inl ⟨op, x, y, rfl, hsets⟩
  | draw x y height => exact .inr ⟨x, y, height, rfl⟩
  | loadRegisters x =>
    -- The flag is the last register, so it is loaded only as the last.
    exact absurd (Fin.le_antisymm (Fin.le_last _) h) (hfirst x rfl)
  | _ => exact h.elim

/-! ### The frame of an instruction -/

/-- What the instruction may change of a machine `m`, if it takes it to `m'`. -/
structure Frame (instr : Instruction) (m m' : Machine) : Prop where
  /-- Memory is changed by the two instructions that store, where they store. -/
  memory : ∀ k, m'.memory.bytes[k]? ≠ m.memory.bytes[k]? →
    (∃ x, instr = .storeDecimal x ∧ m.index.toNat ≤ k ∧ k < m.index.toNat + 3) ∨
    ∃ x, instr = .storeRegisters x ∧ m.index.toNat ≤ k ∧ k ≤ m.index.toNat + x.toNat % 16
  /-- The screen is changed by the instructions that are said to touch it. -/
  screen : m'.screen ≠ m.screen → instr.touchesScreen = true ∧
    (instr = .clearScreen ∨ ∃ x y height, instr = .draw x y height)
  index : m'.index ≠ m.index → (∃ a, instr = .setIndex a) ∨ ∃ x, instr = .addIndex x
  calls : m'.calls ≠ m.calls → (∃ a, instr = .call a) ∨ instr = .ret
  delay : m'.delay ≠ m.delay → ∃ x, instr = .setDelay x
  sound : m'.sound ≠ m.sound → ∃ x, instr = .setSound x
  random : m'.random ≠ m.random → ∃ x mask, instr = .random x mask
  pc : m'.pc ≠ m.pc →
    (∃ a, instr = .jump a ∨ instr = .jumpOffset a ∨ instr = .call a) ∨ instr = .ret ∨
    (∃ condition, instr = .skip condition) ∨ ∃ x, instr = .awaitKey x
  keypad : m'.keypad = m.keypad
  dialect : m'.dialect = m.dialect
  /-- A register is changed if it is the first that the instruction names, or the flag, or one of
  those that are loaded from memory. -/
  register : ∀ r : UInt8, m'.registers.get r ≠ m.registers.get r →
    (∃ x, instr.firstRegister? = some x ∧ r.toNat % 16 = x.toNat % 16) ∨ r.toNat % 16 = 15 ∨
    ∃ x, instr = .loadRegisters x ∧ r.toNat % 16 ≤ x.toNat % 16
  /-- The flag is changed, if it is not the first register, by the arithmetic operations, by the
  logic ones if they clear it in this dialect, and by drawing. -/
  flag : m'.registers.get flag ≠ m.registers.get flag →
    (∀ x, instr.firstRegister? = some x → x.toNat % 16 ≠ 15) →
    (∃ op x y, instr = .alu op x y ∧
      (op ∈ [.add, .sub, .subFrom, .shiftRight, .shiftLeft] ∨
        (op ∈ [.or, .and, .xor] ∧ m.dialect.logicClearsFlag = true))) ∨
    ∃ x y height, instr = .draw x y height
  /-- Every other instruction leaves all registers alone. -/
  registers : m'.registers ≠ m.registers →
    (∃ x value, instr = .load x value ∨ instr = .addByte x value ∨ instr = .random x value) ∨
    (∃ op x y, instr = .alu op x y) ∨ (∃ x y height, instr = .draw x y height) ∨
    ∃ x, instr = .readDelay x ∨ instr = .awaitKey x ∨ instr = .loadRegisters x

/-- Every instruction stays in its frame. Whatever its operands are and whether it fails or not, it
changes of the machine, which includes the screen, only the part that is its own. -/
theorem execute_in_frame (instr : Instruction) (m : Machine) :
    instr.Frame m (instr.execute m).machine where
  memory k hne := by
    obtain ⟨hstart, hend⟩ := stored_of_ne hne
    cases instr with
    | storeDecimal x => exact .inl ⟨x, rfl, hstart, hend⟩
    | storeRegisters x => exact .inr ⟨x, rfl, hstart, Nat.le_of_lt_succ hend⟩
    | _ => exact absurd hend (Nat.not_lt.mpr hstart)
  screen hne := by
    have hdraws := screen_mem_changes_iff.mp (mem_changes_of_not_same (p := .screen) hne)
    refine ⟨?_, hdraws⟩
    rcases hdraws with rfl | ⟨x, y, height, rfl⟩ <;> rfl
  index hne := index_mem_changes_iff.mp (mem_changes_of_not_same (p := .index) hne)
  calls hne := calls_mem_changes_iff.mp (mem_changes_of_not_same (p := .calls) hne)
  delay hne := delay_mem_changes_iff.mp (mem_changes_of_not_same (p := .delay) hne)
  sound hne := sound_mem_changes_iff.mp (mem_changes_of_not_same (p := .sound) hne)
  random hne := random_mem_changes_iff.mp (mem_changes_of_not_same (p := .random) hne)
  pc hne := pc_mem_changes_iff.mp (mem_changes_of_not_same (p := .pc) hne)
  keypad := instr.keypad_execute m
  dialect := instr.dialect_execute m
  register r hne := by
    rcases setsRegister_cases (setsRegister_of_ne hne) with ⟨x, hx, hr⟩ | hflag | ⟨x, rfl, hle⟩
    · exact .inl ⟨x, hx, congrArg Fin.val hr⟩
    · exact .inr (.inl (congrArg Fin.val hflag))
    · exact .inr (.inr ⟨x, rfl, hle⟩)
  flag hne hfirst := by
    have hslot : ∀ x, instr.firstRegister? = some x → slot x ≠ slot flag :=
      fun x hx hflag => hfirst x hx (congrArg Fin.val hflag)
    rcases setsRegister_flag (setsRegister_of_ne hne) hslot with ⟨op, x, y, rfl, hsets⟩ | hdraws
    · exact .inl ⟨op, x, y, rfl, AluOp.setsFlag_iff.mp hsets⟩
    · exact .inr hdraws
  registers hne := registers_mem_changes_iff.mp (mem_changes_of_not_same (p := .registers) hne)

end Instruction

end Chip8
