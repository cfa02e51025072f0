import Chip8.Instruction.Encoding

/-!
# `Chip8.Proofs.Encoding`: reading an opcode that was written

Writing an instruction as an opcode cuts each operand to its field. `Instruction.cut` is
the instruction after that, and `decode?_opcode` says that this is what the opcode reads
back as, with one exception: the address of a machine routine may select the opcode of
clear or of return. `Instruction.reread` has this exception built in, and
`Instruction.isShadowed` tells which routines are meant.

`opcode_of_decode?` is the other direction: an opcode that stands for an instruction is
written again from it, bit by bit. The lemmas before it say the same of each table that
`decode?` looks into.
-/

set_option autoImplicit false

namespace Chip8

/-- The condition with its registers cut to their nibble. -/
def Condition.cut : Condition → Condition
  | .byteEq x value => .byteEq (x % 0x10) value
  | .byteNe x value => .byteNe (x % 0x10) value
  | .registerEq x y => .registerEq (x % 0x10) (y % 0x10)
  | .registerNe x y => .registerNe (x % 0x10) (y % 0x10)
  | .keyDown x => .keyDown (x % 0x10)
  | .keyUp x => .keyUp (x % 0x10)

/-- The operands of the condition for which an opcode has a nibble. -/
def Condition.nibbles : Condition → List UInt8
  | .byteEq x _ | .byteNe x _ | .keyDown x | .keyUp x => [x]
  | .registerEq x y | .registerNe x y => [x, y]

namespace Instruction

/-- The instruction with every operand cut to its field. -/
def cut : Instruction → Instruction
  | .system address => .system (address % 0x1000)
  | .clearScreen => .clearScreen
  | .ret => .ret
  | .jump address => .jump (address % 0x1000)
  | .call address => .call (address % 0x1000)
  | .skip condition => .skip condition.cut
  | .load x value => .load (x % 0x10) value
  | .addByte x value => .addByte (x % 0x10) value
  | .alu op x y => .alu op (x % 0x10) (y % 0x10)
  | .setIndex address => .setIndex (address % 0x1000)
  | .jumpOffset address => .jumpOffset (address % 0x1000)
  | .random x mask => .random (x % 0x10) mask
  | .draw x y height => .draw (x % 0x10) (y % 0x10) (height % 0x10)
  | .readDelay x => .readDelay (x % 0x10)
  | .awaitKey x => .awaitKey (x % 0x10)
  | .setDelay x => .setDelay (x % 0x10)
  | .setSound x => .setSound (x % 0x10)
  | .addIndex x => .addIndex (x % 0x10)
  | .glyph x => .glyph (x % 0x10)
  | .storeDecimal x => .storeDecimal (x % 0x10)
  | .storeRegisters x => .storeRegisters (x % 0x10)
  | .loadRegisters x => .loadRegisters (x % 0x10)

/-- The operands for which an opcode has a nibble: the registers, and the height of a sprite. -/
def nibbles : Instruction → List UInt8
  | .system _ | .clearScreen | .ret | .jump _ | .call _ | .setIndex _ | .jumpOffset _ => []
  | .skip condition => condition.nibbles
  | .load x _ | .addByte x _ | .random x _ => [x]
  | .alu _ x y => [x, y]
  | .draw x y height => [x, y, height]
  | .readDelay x | .awaitKey x | .setDelay x | .setSound x | .addIndex x | .glyph x
  | .storeDecimal x | .storeRegisters x | .loadRegisters x => [x]

/-- The operand for which an opcode has twelve bits. -/
def address? : Instruction → Option UInt16
  | .system address | .jump address | .call address | .setIndex address | .jumpOffset address =>
    some address
  | _ => none

/-- What the opcode of an instruction reads back as. -/
def reread (instr : Instruction) : Instruction :=
  match instr with
  | .system address => ofSystemCode (address % 0x1000)
  | _ => instr.cut

/-- Whether the instruction is a machine routine whose opcode is that of clear or of return. -/
def isShadowed : Instruction → Bool
  | .system address => address % 0x1000 == 0x0E0 || address % 0x1000 == 0x0EE
  | _ => false

/-- Where no other opcode is in the way, an instruction reads back as itself, cut. -/
theorem reread_of_not_isShadowed {instr : Instruction} (h : instr.isShadowed = false) :
    instr.reread = instr.cut := by
  cases instr with
  | system address =>
    obtain ⟨hclear, hret⟩ := Bool.or_eq_false_iff.mp h
    show ofSystemCode (address % 0x1000) = .system (address % 0x1000)
    rw [ofSystemCode, if_neg (beq_eq_false_iff_ne.mp hclear),
      if_neg (beq_eq_false_iff_ne.mp hret)]
  | _ => rfl

end Instruction

/-! ### The fields and codes that were written -/

section Fields

variable {f : Nat} (hf : f < 16)
include hf

/-- The family is read back from an opcode with an address. -/
theorem Opcode.family_ofAddress (a : UInt16) : (ofAddress f a).family = f :=
  (fields_ofAddress hf a).1

/-- The address is read back cut to twelve bits. -/
theorem Opcode.address_ofAddress (a : UInt16) : (ofAddress f a).address = a % 0x1000 :=
  (fields_ofAddress hf a).2

/-- The family is read back from an opcode with a byte. -/
theorem Opcode.family_ofByte (x b : UInt8) : (ofByte f x b).family = f :=
  (fields_ofByte hf x b).1

/-- The register is read back cut to a nibble. -/
theorem Opcode.x_ofByte (x b : UInt8) : (ofByte f x b).x = x % 0x10 :=
  (fields_ofByte hf x b).2.1

/-- The byte is read back as it is. -/
theorem Opcode.byte_ofByte (x b : UInt8) : (ofByte f x b).byte = b :=
  (fields_ofByte hf x b).2.2

/-- The family is read back from an opcode of nibbles. -/
theorem Opcode.family_ofNibbles (x y n : UInt8) : (ofNibbles f x y n).family = f :=
  (fields_ofNibbles hf x y n).1

/-- The first register is read back cut to a nibble. -/
theorem Opcode.x_ofNibbles (x y n : UInt8) : (ofNibbles f x y n).x = x % 0x10 :=
  (fields_ofNibbles hf x y n).2.1

/-- The second register is read back cut to a nibble. -/
theorem Opcode.y_ofNibbles (x y n : UInt8) : (ofNibbles f x y n).y = y % 0x10 :=
  (fields_ofNibbles hf x y n).2.2.1

/-- The last nibble is read back cut to a nibble. -/
theorem Opcode.nibble_ofNibbles (x y n : UInt8) : (ofNibbles f x y n).nibble = n % 0x10 :=
  (fields_ofNibbles hf x y n).2.2.2

end Fields

/-- The nibble of a register operation selects that operation. -/
theorem AluOp.ofCode?_code (op : AluOp) : ofCode? (op.code % 0x10) = some op := by
  cases op <;> rfl

/-- The operation that a nibble selects has that nibble. -/
theorem AluOp.code_of_ofCode? {code : UInt8} {op : AluOp} (h : ofCode? code = some op) :
    op.code = code := by
  unfold ofCode? at h
  -- The table matches on the number, so each row that is left gives the number of the nibble.
  apply UInt8.toNat_inj.mp
  split at h <;> cases h <;> simp_all [AluOp.code]

namespace Instruction

open Opcode

/-! ### An opcode that was written, read back -/

/-- In family `E` the byte decides which instruction about a key it is. -/
theorem decode?_ofByte_key (x code : UInt8) :
    decode? (.ofByte 0xE x code) = ofKeyCode? (x % 0x10) code := by
  simp only [decode?, family_ofByte, x_ofByte, byte_ofByte, Nat.reduceLT]

/-- In family `F` the byte decides which instruction it is. -/
theorem decode?_ofByte_device (x code : UInt8) :
    decode? (.ofByte 0xF x code) = ofDeviceCode? (x % 0x10) code := by
  simp only [decode?, family_ofByte, x_ofByte, byte_ofByte, Nat.reduceLT]

/-- A skip is read back with its operands cut. -/
theorem decode?_opcode_skip (condition : Condition) :
    decode? (skip condition).opcode = some (.skip condition.cut) := by
  cases condition with
  | byteEq | byteNe =>
    simp only [opcode, decode?, family_ofByte, x_ofByte, byte_ofByte, Nat.reduceLT, Condition.cut]
  | registerEq | registerNe =>
    simp only [opcode, decode?, family_ofNibbles, x_ofNibbles, y_ofNibbles, nibble_ofNibbles,
      Nat.reduceLT, Condition.cut]
    rfl
  | keyDown x => exact decode?_ofByte_key x 0x9E
  | keyUp x => exact decode?_ofByte_key x 0xA1

/-- The opcode of an instruction reads back as the instruction, cut, or as what shadows it. -/
theorem decode?_opcode (instr : Instruction) : decode? instr.opcode = some instr.reread := by
  cases instr with
  | clearScreen => rfl
  | ret => rfl
  | system | jump | call | setIndex | jumpOffset =>
    simp only [opcode, decode?, family_ofAddress, address_ofAddress, Nat.reduceLT, reread, cut]
  | load | addByte | random =>
    simp only [opcode, decode?, family_ofByte, x_ofByte, byte_ofByte, Nat.reduceLT, reread, cut]
  | skip condition => exact decode?_opcode_skip condition
  | alu op x y =>
    simp only [opcode, decode?, family_ofNibbles, x_ofNibbles, y_ofNibbles, nibble_ofNibbles,
      Nat.reduceLT, AluOp.ofCode?_code, Option.map_some, reread, cut]
  | draw x y height =>
    simp only [opcode, decode?, family_ofNibbles, x_ofNibbles, y_ofNibbles, nibble_ofNibbles,
      Nat.reduceLT, reread, cut]
  | readDelay x => exact decode?_ofByte_device x 0x07
  | awaitKey x => exact decode?_ofByte_device x 0x0A
  | setDelay x => exact decode?_ofByte_device x 0x15
  | setSound x => exact decode?_ofByte_device x 0x18
  | addIndex x => exact decode?_ofByte_device x 0x1E
  | glyph x => exact decode?_ofByte_device x 0x29
  | storeDecimal x => exact decode?_ofByte_device x 0x33
  | storeRegisters x => exact decode?_ofByte_device x 0x55
  | loadRegisters x => exact decode?_ofByte_device x 0x65

/-! ### An opcode that was read, written again -/

/-- Whatever an address in family `0` is read as, its opcode has that address. -/
theorem opcode_ofSystemCode (address : UInt16) :
    (ofSystemCode address).opcode = .ofAddress 0x0 address := by
  unfold ofSystemCode
  split
  · rename_i h
    rw [h]
    rfl
  · split
    · rename_i h
      rw [h]
      rfl
    · rfl

/-- An instruction about a key has the opcode that it was read from. -/
theorem opcode_of_ofKeyCode? {x code : UInt8} {instr : Instruction}
    (h : ofKeyCode? x code = some instr) : instr.opcode = .ofByte 0xE x code := by
  unfold ofKeyCode? at h
  -- Each row that is left names the code that selects it.
  split at h <;> cases h <;> rename_i hcode
  all_goals
    rw [← UInt8.ofNat_toNat (x := code), hcode]
    rfl

/-- An instruction of family `F` has the opcode that it was read from. -/
theorem opcode_of_ofDeviceCode? {x code : UInt8} {instr : Instruction}
    (h : ofDeviceCode? x code = some instr) : instr.opcode = .ofByte 0xF x code := by
  unfold ofDeviceCode? at h
  split at h <;> cases h <;> rename_i hcode
  all_goals
    rw [← UInt8.ofNat_toNat (x := code), hcode]
    rfl

/-- An opcode that stands for an instruction is the opcode of that instruction. -/
theorem opcode_of_decode? {w : Opcode} {instr : Instruction} (h : decode? w = some instr) :
    instr.opcode = w := by
  -- The three layouts of a word, with the family as the literal that `decode?` matched.
  have haddress {f : Nat} (hf : w.family = f) : ofAddress f w.address = w :=
    hf ▸ ofAddress_fields w
  have hbyte {f : Nat} (hf : w.family = f) : ofByte f w.x w.byte = w := hf ▸ ofByte_fields w
  have hnibbles {f : Nat} {n : UInt8} (hf : w.family = f) (hn : w.nibble = n) :
      ofNibbles f w.x w.y n = w := hf ▸ hn ▸ ofNibbles_fields w
  unfold decode? at h
  split at h <;> rename_i hfamily
  case h_1 =>
    cases h
    exact (opcode_ofSystemCode _).trans (haddress hfamily)
  case h_6 | h_10 =>
    split at h
    · rename_i hn
      cases h
      exact hnibbles hfamily hn
    · exact nomatch h
  case h_9 =>
    obtain ⟨op, hop, rfl⟩ := Option.map_eq_some_iff.mp h
    exact hnibbles hfamily (AluOp.code_of_ofCode? hop).symm
  case h_15 => exact (opcode_of_ofKeyCode? h).trans (hbyte hfamily)
  case h_16 => exact (opcode_of_ofDeviceCode? h).trans (hbyte hfamily)
  case h_17 => exact nomatch h
  case h_2 | h_3 | h_11 | h_12 => cases h; exact haddress hfamily
  case h_4 | h_5 | h_7 | h_8 | h_13 => cases h; exact hbyte hfamily
  case h_14 => cases h; exact hnibbles hfamily rfl

/-- An opcode that stands for an instruction reads back as that instruction. -/
theorem decode?_opcode_of_decode? {w : Opcode} {instr : Instruction}
    (h : decode? w = some instr) : decode? instr.opcode = some instr := by
  rw [opcode_of_decode? h, h]

end Instruction

end Chip8
