/-!
# `Chip8.Registers`: the register file

Sixteen byte registers. The last one is also the flag that arithmetic and drawing
report in. A register operand is a byte of which the low nibble counts, so every
operand names a register.
-/

set_option autoImplicit false

namespace Chip8

/-- The contents of the registers. -/
@[ext]
structure Registers where
  bytes : Vector UInt8 16
  deriving DecidableEq

namespace Registers

/-- How many registers there are. -/
def count : Nat := 16

/-- The number of the flag register. -/
def flag : UInt8 := 15

/-- The register that an operand names. -/
def slot (x : UInt8) : Fin 16 := ⟨x.toNat % 16, Nat.mod_lt _ (by decide)⟩

/-- Every register holds zero. -/
def zero : Registers := ⟨Vector.replicate 16 0⟩

/-- The byte in register `x`. -/
def get (r : Registers) (x : UInt8) : UInt8 := r.bytes[slot x]

/-- Puts a byte into register `x`. -/
def set (r : Registers) (x value : UInt8) : Registers :=
  ⟨r.bytes.set (slot x) value (slot x).isLt⟩

/-- Puts one or zero into the flag register. -/
def setFlag (r : Registers) (raised : Bool) : Registers :=
  r.set flag (if raised then 1 else 0)

/-- All registers, the first one first. -/
def toList (r : Registers) : List UInt8 := r.bytes.toList

/-- The contents of registers 0 to `x`. -/
def upTo (r : Registers) (x : UInt8) : List UInt8 :=
  r.toList.take (slot x + 1)

/-- Puts bytes into the registers from 0 on. The others keep theirs. -/
def fill (r : Registers) (bytes : List UInt8) : Registers :=
  ⟨Vector.ofFn fun k => bytes[k.val]?.getD (r.bytes.get k)⟩

/-! ### Reading after writing -/

/-- A register that was set holds the value, and the others hold what they held. -/
theorem get_set (r : Registers) (x y v : UInt8) :
    (r.set x v).get y = if slot y = slot x then v else r.get y := by
  simp only [get, set, Fin.getElem_fin, Vector.getElem_set, Fin.ext_iff, eq_comm]

/-- A filled register holds its byte, and one past the last byte holds what it held. -/
theorem get_fill (r : Registers) (bs : List UInt8) (y : UInt8) :
    (r.fill bs).get y = bs[(slot y).val]?.getD (r.get y) := by
  simp only [get, fill, Vector.getElem_ofFn, Fin.getElem_fin]
  rfl

end Registers

end Chip8
