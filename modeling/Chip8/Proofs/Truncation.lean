import Chip8.Machine.Execute
import Chip8.Proofs.Encoding

/-!
# `Chip8.Proofs.Truncation`: executing what was assembled

Writing an opcode cuts the operands of an instruction, so what is read back may hold other
operands. `execute_reread_iff` says when the two do the same. Registers and heights are cut
to their nibble by execution as well (`execute_cut`), and bytes fill their field. Addresses
are used in full, so the theorem asks that the address which execution uses fits its field.
The one thing that can then come between is a machine routine with the opcode of clear or of
return: it does nothing itself, and what its opcode stands for does something.

`execute_reread_ne` has an instruction of either kind: one whose address does not fit, and
a machine routine that is read back as clear.
-/

set_option autoImplicit false

namespace Chip8

/-! ### Register operands count by their low nibble -/

namespace Registers

/-- A register's number is its low nibble already. -/
theorem slot_mod (x : UInt8) : slot (x % 0x10) = slot x := by
  apply Fin.ext
  show (x % 0x10).toNat % 16 = x.toNat % 16
  rw [UInt8.toNat_mod]
  exact Nat.mod_mod _ _

/-- A cut operand names the same register to read. -/
theorem get_mod (r : Registers) (x : UInt8) : r.get (x % 0x10) = r.get x := by
  simp only [get, slot_mod]

/-- A cut operand names the same register to set. -/
theorem set_mod (r : Registers) (x value : UInt8) : r.set (x % 0x10) value = r.set x value := by
  simp only [set, slot_mod]

/-- The registers up to a cut operand are the same. -/
theorem upTo_mod (r : Registers) (x : UInt8) : r.upTo (x % 0x10) = r.upTo x := by
  simp only [upTo, slot_mod]

end Registers

/-- A condition holds as it does with its operands cut. -/
theorem Condition.holds_cut (condition : Condition) (m : Machine) :
    condition.cut.holds m = condition.holds m := by
  cases condition <;> simp only [cut, holds, Registers.get_mod]

namespace Instruction

/-- The address that execution puts into the program counter or the index, alone or with a
register added. -/
def usedAddress? : Instruction → Option UInt16
  | .jump address | .call address | .setIndex address | .jumpOffset address => some address
  | _ => none

/-- An instruction whose address fits its field does the same when its operands are cut. -/
theorem execute_cut {instr : Instruction} (haddress : ∀ a ∈ instr.usedAddress?, a.toNat < 0x1000)
    (m : Machine) : instr.cut.execute m = instr.execute m := by
  cases instr with
  | system | clearScreen | ret | glyph => rfl
  | jump address | call address | setIndex address | jumpOffset address =>
    have hlt : address < 0x1000 := haddress address rfl
    rw [cut, UInt16.mod_eq_of_lt hlt]
  | skip condition => simp only [cut, execute, Condition.holds_cut]
  | load | addByte | random | readDelay | awaitKey | setDelay | setSound | addIndex =>
    simp only [cut, execute, Machine.setRegister, Registers.get_mod, Registers.set_mod]
  | alu op x y =>
    simp only [cut, execute, Machine.combine, Machine.setRegister, Registers.get_mod,
      Registers.set_mod]
  | draw x y height =>
    simp only [cut, execute, Machine.drawSprite, Registers.get_mod, UInt8.toNat_mod,
      UInt8.reduceToNat, Nat.mod_mod]
  | storeDecimal x => simp only [cut, execute, Registers.get_mod]
  | storeRegisters x => simp only [cut, execute, Registers.upTo_mod]
  | loadRegisters x => simp only [cut, execute, Machine.loadRegisters, Registers.slot_mod]

/-- An instruction that was read from an opcode reads back as itself. -/
theorem reread_of_decode? {w : Opcode} {instr : Instruction} (h : decode? w = some instr) :
    instr.reread = instr :=
  Option.some.inj ((decode?_opcode instr).symm.trans (decode?_opcode_of_decode? h))

/-- Its address fits the field that it was read from. -/
theorem usedAddress_lt_of_decode? {w : Opcode} {instr : Instruction}
    (h : decode? w = some instr) : ∀ a ∈ instr.usedAddress?, a.toNat < 0x1000 := by
  have hcut {a : UInt16} (ha : a % 0x1000 = a) : a.toNat < 0x1000 := by
    have := congrArg UInt16.toNat ha
    rw [UInt16.toNat_mod] at this
    exact this ▸ Nat.mod_lt _ (by decide)
  have hread := reread_of_decode? h
  intro a ha
  cases instr with
  | jump | call | setIndex | jumpOffset =>
    cases ha
    injection hread with hread
    exact hcut hread
  | _ => exact nomatch ha

/-! ### Machine routines with the opcode of another instruction -/

/-- A machine with one lit pixel and no open call. -/
def onePixel : Machine := { Machine.fresh {} with screen := Screen.blank.draw [0x80] 0 0 }

/-- Clearing the screen changes a machine with a lit pixel. -/
theorem clearScreen_execute_onePixel : clearScreen.execute onePixel ≠ .done onePixel := by
  intro h
  have hpixel := congrArg (fun outcome => outcome.machine.screen.pixel 0 0) h
  exact absurd hpixel (by decide +kernel)

/-- A return fails on a machine with no open call. -/
theorem ret_execute_onePixel : ret.execute onePixel ≠ .done onePixel := by
  intro h
  exact nomatch congrArg Outcome.fault h

/-- A shadowed machine routine does nothing, and what its opcode stands for does something. -/
theorem execute_reread_ne_onePixel {instr : Instruction} (h : instr.isShadowed = true) :
    instr.reread.execute onePixel ≠ instr.execute onePixel := by
  cases instr with
  | system address =>
    show (ofSystemCode (address % 0x1000)).execute onePixel ≠ .done onePixel
    -- One machine tells both of them apart: it has a pixel to clear and no call to return from.
    rcases (Bool.or_eq_true _ _).mp h with hclear | hret
    · rw [eq_of_beq hclear]
      exact clearScreen_execute_onePixel
    · rw [eq_of_beq hret]
      exact ret_execute_onePixel
  | _ => exact nomatch h

/-- An instruction whose address fits its field has an opcode that reads back, and what is
read back does the same on every machine, with the same failures. The exceptions are the machine
routines with the opcode of clear or of return. -/
theorem execute_reread_iff (instr : Instruction)
    (haddress : ∀ a ∈ instr.usedAddress?, a.toNat < 0x1000) :
    ∃ reread, decode? instr.opcode = some reread ∧
      ((∀ m : Machine, reread.execute m = instr.execute m) ↔ instr.isShadowed = false) := by
  refine ⟨instr.reread, decode?_opcode instr, ?_⟩
  constructor
  · intro hsame
    cases hshadow : instr.isShadowed with
    | false => rfl
    | true =>
      have hne := execute_reread_ne_onePixel hshadow
      exact absurd (hsame onePixel) hne
  · intro hshadow m
    rw [reread_of_not_isShadowed hshadow]
    exact execute_cut haddress m

/-- The highest address that fits: one more would be cut to zero. -/
theorem execute_reread_iff_jumpOffset :
    (∀ a ∈ (jumpOffset 0xFFF).usedAddress?, a.toNat < 0x1000) ∧
    ∃ reread, decode? (jumpOffset 0xFFF).opcode = some reread ∧
      ((∀ m : Machine, reread.execute m = (jumpOffset 0xFFF).execute m)
        ↔ (jumpOffset 0xFFF).isShadowed = false) := by
  have haddress : ∀ a ∈ (jumpOffset 0xFFF).usedAddress?, a.toNat < 0x1000 := by
    intro a ha
    cases ha
    decide
  exact ⟨haddress, execute_reread_iff _ haddress⟩

/-- What is read back need not do the same. An address that does not fit ends up in the index
in full when the instruction is executed, and cut when it is assembled before. A machine routine
at the place of clear is read back as clear, and a lit pixel shows the difference. -/
theorem execute_reread_ne :
    (decode? (setIndex 0xFFFF).opcode = some (.setIndex 0xFFF) ∧
      (setIndex 0xFFF).execute (.fresh {}) ≠ (setIndex 0xFFFF).execute (.fresh {})) ∧
    (decode? (system 0x0E0).opcode = some .clearScreen ∧
      clearScreen.execute onePixel ≠ (system 0x0E0).execute onePixel) := by
  refine ⟨⟨decode?_opcode _, ?_⟩, decode?_opcode _, clearScreen_execute_onePixel⟩
  intro h
  have hindex := congrArg (fun outcome => outcome.machine.index) h
  exact absurd hindex (by decide)

end Instruction

end Chip8
