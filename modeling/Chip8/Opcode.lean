/-!
# `Chip8.Opcode`: the instruction word and its fields

An opcode is a 16-bit word. Its first nibble is the family, and the other three
are read as one address, as a register and a byte, or as two registers and a
nibble. `ofAddress`, `ofByte` and `ofNibbles` build a word from such fields and
drop what does not fit.

Main statements: the `fields_of…` theorems read the fields back from a word that was
built, and the `…_fields` theorems build a word again from its own fields.
-/

set_option autoImplicit false

namespace Chip8

/-- An instruction word. -/
abbrev Opcode := UInt16

namespace Opcode

/-- The number of bytes that one word takes in memory. -/
def size : Nat := 2

/-- The word of two bytes, the high one first. -/
def ofBytes (high low : UInt8) : Opcode :=
  UInt16.ofNat (high.toNat * 0x100 + low.toNat)

/-- The first nibble. -/
def family (w : Opcode) : Nat := w.toNat / 0x1000

/-- The second nibble, which names a register. -/
def x (w : Opcode) : UInt8 := UInt8.ofNat (w.toNat / 0x100 % 0x10)

/-- The third nibble, which names a register. -/
def y (w : Opcode) : UInt8 := UInt8.ofNat (w.toNat / 0x10 % 0x10)

/-- The last nibble. -/
def nibble (w : Opcode) : UInt8 := UInt8.ofNat (w.toNat % 0x10)

/-- The low byte. -/
def byte (w : Opcode) : UInt8 := UInt8.ofNat (w.toNat % 0x100)

/-- The low twelve bits. -/
def address (w : Opcode) : UInt16 := UInt16.ofNat (w.toNat % 0x1000)

/-- The word of a family and an address, of which the low twelve bits are kept. -/
def ofAddress (family : Nat) (address : UInt16) : Opcode :=
  UInt16.ofNat (family * 0x1000 + address.toNat % 0x1000)

/-- The word of a family, a register and a byte. The low nibble of the register is kept. -/
def ofByte (family : Nat) (x byte : UInt8) : Opcode :=
  UInt16.ofNat (family * 0x1000 + x.toNat % 0x10 * 0x100 + byte.toNat)

/-- The word of a family and three nibbles. The low nibble of each is kept. -/
def ofNibbles (family : Nat) (x y nibble : UInt8) : Opcode :=
  UInt16.ofNat
    (family * 0x1000 + x.toNat % 0x10 * 0x100 + y.toNat % 0x10 * 0x10 + nibble.toNat % 0x10)

/-! ### Reading back what was built -/

/-- The first of its two bytes is the high half of an opcode. -/
theorem toNat_ofBytes (high low : UInt8) :
    (ofBytes high low).toNat = high.toNat * 0x100 + low.toNat := by
  have := high.toNat_lt
  have := low.toNat_lt
  simp only [ofBytes, UInt16.toNat_ofNat']
  omega

/-- The number of an opcode with an address, of which twelve bits stay. -/
theorem toNat_ofAddress {f : Nat} (hf : f < 16) (a : UInt16) :
    (ofAddress f a).toNat = f * 0x1000 + a.toNat % 0x1000 := by
  simp only [ofAddress, UInt16.toNat_ofNat']
  omega

/-- The number of an opcode with a register and a byte. -/
theorem toNat_ofByte {f : Nat} (hf : f < 16) (r b : UInt8) :
    (ofByte f r b).toNat = f * 0x1000 + r.toNat % 0x10 * 0x100 + b.toNat := by
  have := b.toNat_lt
  simp only [ofByte, UInt16.toNat_ofNat']
  omega

/-- The number of an opcode with two registers and a nibble. -/
theorem toNat_ofNibbles {f : Nat} (hf : f < 16) (r s n : UInt8) :
    (ofNibbles f r s n).toNat
      = f * 0x1000 + r.toNat % 0x10 * 0x100 + s.toNat % 0x10 * 0x10 + n.toNat % 0x10 := by
  simp only [ofNibbles, UInt16.toNat_ofNat']
  omega

/-- A word of a family and an address has that family and the low twelve bits. -/
theorem fields_ofAddress {f : Nat} (hf : f < 16) (a : UInt16) :
    (ofAddress f a).family = f ∧ (ofAddress f a).address = a % 0x1000 := by
  refine ⟨?_, UInt16.toNat_inj.1 ?_⟩
  · rw [family, toNat_ofAddress hf]
    omega
  · simp only [address, toNat_ofAddress hf, UInt16.toNat_ofNat', UInt16.toNat_mod,
      UInt16.reduceToNat]
    omega

/-- A word of a family, a register and a byte has those, the register cut to its nibble. -/
theorem fields_ofByte {f : Nat} (hf : f < 16) (r b : UInt8) :
    (ofByte f r b).family = f ∧ (ofByte f r b).x = r % 0x10 ∧ (ofByte f r b).byte = b := by
  have := b.toNat_lt
  refine ⟨?_, UInt8.toNat_inj.1 ?_, UInt8.toNat_inj.1 ?_⟩
  · rw [family, toNat_ofByte hf]
    omega
  · simp only [x, toNat_ofByte hf, UInt8.toNat_ofNat', UInt8.toNat_mod, UInt8.reduceToNat]
    omega
  · simp only [byte, toNat_ofByte hf, UInt8.toNat_ofNat']
    omega

/-- A word of a family and three nibbles has those, each cut to its nibble. -/
theorem fields_ofNibbles {f : Nat} (hf : f < 16) (r s n : UInt8) :
    (ofNibbles f r s n).family = f ∧ (ofNibbles f r s n).x = r % 0x10
      ∧ (ofNibbles f r s n).y = s % 0x10 ∧ (ofNibbles f r s n).nibble = n % 0x10 := by
  refine ⟨?_, UInt8.toNat_inj.1 ?_, UInt8.toNat_inj.1 ?_, UInt8.toNat_inj.1 ?_⟩
  · rw [family, toNat_ofNibbles hf]
    omega
  · simp only [x, toNat_ofNibbles hf, UInt8.toNat_ofNat', UInt8.toNat_mod, UInt8.reduceToNat]
    omega
  · simp only [y, toNat_ofNibbles hf, UInt8.toNat_ofNat', UInt8.toNat_mod, UInt8.reduceToNat]
    omega
  · simp only [nibble, toNat_ofNibbles hf, UInt8.toNat_ofNat', UInt8.toNat_mod,
      UInt8.reduceToNat]
    omega

/-! ### Building again what was read -/

/-- A family is one of sixteen. -/
theorem family_lt (w : Opcode) : w.family < 16 := by
  have := w.toNat_lt
  rw [family]
  omega

/-- An opcode is put together of its family and its address. -/
theorem ofAddress_fields (w : Opcode) : ofAddress w.family w.address = w := by
  have := w.toNat_lt
  apply UInt16.toNat_inj.1
  rw [toNat_ofAddress w.family_lt]
  simp only [family, address, UInt16.toNat_ofNat']
  omega

/-- An opcode is put together of its family, its first register and its byte. -/
theorem ofByte_fields (w : Opcode) : ofByte w.family w.x w.byte = w := by
  have := w.toNat_lt
  apply UInt16.toNat_inj.1
  rw [toNat_ofByte w.family_lt]
  simp only [family, x, byte, UInt8.toNat_ofNat']
  omega

/-- An opcode is put together of its four nibbles. -/
theorem ofNibbles_fields (w : Opcode) : ofNibbles w.family w.x w.y w.nibble = w := by
  have := w.toNat_lt
  apply UInt16.toNat_inj.1
  rw [toNat_ofNibbles w.family_lt]
  simp only [family, x, y, nibble, UInt8.toNat_ofNat']
  omega

end Opcode

end Chip8
