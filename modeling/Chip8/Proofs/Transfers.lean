import Chip8.Proofs.Access
import Mathlib.Tactic.Common

/-!
# `Chip8.Proofs.Transfers`: registers to memory and back

Three instructions move bytes between the registers and memory at the index: one stores registers
from 0 on, one loads them, and one stores the three decimal digits of a register. None of them moves
the index, so that what one has stored the next one finds. Each statement here comes from two facts
about memory, that what was written can be read back and that to write what was read changes
nothing, and from two about registers: to fill the registers with what was taken from others copies
these (`Registers.get_fill_upTo`), and what the registers were filled with can be taken from them
(`Registers.upTo_fill`).
-/

set_option autoImplicit false

namespace Chip8

open Registers (slot)
open Memory (InRange)

/-! ### Registers -/

namespace Registers

/-- The registers up to `x`, one by one. -/
theorem getElem?_upTo (r : Registers) (x : UInt8) (k : Nat) :
    (r.upTo x)[k]? = if k ≤ slot x then r.bytes[k]? else none := by
  rw [upTo, toList, List.getElem?_take, Vector.getElem?_toList]
  simp only [Nat.lt_succ_iff]

/-- Filling registers with those of another file up to `x` copies these, and leaves the rest. -/
theorem get_fill_upTo (r r' : Registers) (x y : UInt8) :
    (r.fill (r'.upTo x)).get y = if (slot y).val ≤ slot x then r'.get y else r.get y := by
  rw [get_fill, getElem?_upTo]
  by_cases hy : (slot y).val ≤ slot x
  · rw [if_pos hy, if_pos hy, Vector.getElem?_eq_getElem (slot y).isLt]
    rfl
  · rw [if_neg hy, if_neg hy]
    rfl

/-- Registers hold the bytes that they were filled with. -/
theorem upTo_fill (r : Registers) {x : UInt8} {bytes : List UInt8}
    (h : bytes.length = slot x + 1) : (r.fill bytes).upTo x = bytes := by
  apply List.ext_getElem?
  intro k
  rw [getElem?_upTo]
  by_cases hk : k ≤ slot x
  · have hx := (slot x).isLt
    have hitem : bytes[k]? = some bytes[k] := List.getElem?_eq_getElem (by omega)
    rw [if_pos hk, Vector.getElem?_eq_getElem (by omega), hitem, fill, Vector.getElem_ofFn, hitem]
    rfl
  · rw [if_neg hk, List.getElem?_eq_none (by omega)]

end Registers

/-! ### Decimal digits -/

/-- The digits of a byte are digits, and the byte is their value. -/
theorem Machine.value_decimalDigits (byte : UInt8) :
    ∃ hundreds tens ones : UInt8, decimalDigits byte = [hundreds, tens, ones] ∧
      (hundreds.toNat ≤ 9 ∧ tens.toNat ≤ 9 ∧ ones.toNat ≤ 9) ∧
      100 * hundreds.toNat + 10 * tens.toNat + ones.toNat = byte.toNat := by
  have hbyte := byte.toNat_lt
  refine ⟨byte / 100, byte / 10 % 10, byte % 10, rfl, ?_⟩
  have hhundreds : (byte / 100).toNat = byte.toNat / 100 := UInt8.toNat_div byte 100
  have htens : (byte / 10 % 10).toNat = byte.toNat / 10 % 10 := by
    rw [UInt8.toNat_mod, UInt8.toNat_div]
    rfl
  have hones : (byte % 10).toNat = byte.toNat % 10 := UInt8.toNat_mod byte 10
  rw [hhundreds, htens, hones]
  omega

/-! ### Instructions -/

namespace Instruction

variable {m n : Machine} {x : UInt8} {bytes : List UInt8}

/-- Filling registers from bytes that can be read succeeds and changes only registers. -/
theorem execute_loadRegisters_of_read
    (h : m.memory.read m.index.toNat (slot x + 1) = .ok bytes) :
    (loadRegisters x).execute m = .done { m with registers := m.registers.fill bytes } := by
  show m.loadRegisters x = _
  rw [Machine.loadRegisters, h]
  rfl

/-- A load that succeeds has read its bytes. -/
theorem read_of_loadRegisters (h : ((loadRegisters x).execute m).fault = none) :
    ∃ bytes, m.memory.read m.index.toNat (slot x + 1) = .ok bytes :=
  Outcome.fault_ofPart_eq_none_iff.mp h

/-- Bytes that were written at the index are loaded wherever the index and these bytes are still
the same. -/
theorem execute_loadRegisters_of_write (hindex : n.index = m.index)
    (hlength : bytes.length = slot x + 1) (hwrite : (m.write m.index.toNat bytes).fault = none)
    (hsame : ∀ k, InRange m.index.toNat bytes.length k →
      n.memory.bytes[k]? = (m.write m.index.toNat bytes).machine.memory.bytes[k]?) :
    (loadRegisters x).execute n = .done { n with registers := n.registers.fill bytes } := by
  obtain ⟨memory, hmemory⟩ := Machine.fault_write_eq_none_iff.mp hwrite
  rw [Machine.write_of_ok hmemory] at hsame
  apply execute_loadRegisters_of_read
  rw [hindex, ← hlength]
  exact Memory.read_congr hsame (Memory.read_of_write hmemory)

/-- The digits of a register that were stored are loaded next. The store keeps the index, so they
lie where the load looks for them. -/
theorem execute_loadRegisters_storeDecimal (h : ((storeDecimal x).execute m).fault = none) :
    let spelled := ((storeDecimal x).execute m).machine
    (loadRegisters 2).execute spelled = .done { spelled with
      registers := spelled.registers.fill (Machine.decimalDigits (m.registers.get x)) } :=
  execute_loadRegisters_of_write (same_execute (p := .index) (by simp [changes]) m) rfl h
    fun _ _ => rfl

/-- Registers that were loaded, from where writing is allowed, can be stored again, and memory is
then what it was. -/
theorem execute_storeRegisters_of_read (hstart : Memory.programStart ≤ m.index.toNat)
    (h : m.memory.read m.index.toNat (slot x + 1) = .ok bytes) :
    (storeRegisters x).execute { m with registers := m.registers.fill bytes }
      = .done { m with registers := m.registers.fill bytes } := by
  have hback : (m.registers.fill bytes).upTo x = bytes :=
    Registers.upTo_fill _ ((m.memory.read_eq_ok_iff _ _ bytes).mp h).2.1
  show Machine.write _ m.index.toNat ((m.registers.fill bytes).upTo x) = _
  rw [hback]
  exact Machine.write_of_ok (Memory.write_of_read hstart h)

/-- Stores and loads undo each other. On any machine and for registers 0 to `x`:

If they can be stored, then any machine with the same index and the same bytes in their place, and
with anything else in its registers, can load them. It then has the stored bytes in these registers
and is otherwise what it was, the index included.

If they can be loaded, from where writing is allowed, then they can be stored next, and memory is
what it was.

If the decimal digits of register `x` can be stored, then registers 0 to 2 can be loaded next, and
hold three digits of which the byte is the value. Memory has changed in these three bytes at
most. -/
theorem transfers_round_trip (m : Machine) (x : UInt8) :
    let i := m.index.toNat
    let stored := (storeRegisters x).execute m
    let loaded := (loadRegisters x).execute m
    let spelled := (storeDecimal x).execute m
    (stored.fault = none → ∀ n : Machine, n.index = m.index →
      (∀ k, i ≤ k → k ≤ i + x.toNat % 16 →
        n.memory.bytes[k]? = stored.machine.memory.bytes[k]?) →
      let restored := (loadRegisters x).execute n
      restored.fault = none ∧
      (∀ r : UInt8, r.toNat % 16 ≤ x.toNat % 16 →
        restored.machine.registers.get r = m.registers.get r) ∧
      (∀ r : UInt8, x.toNat % 16 < r.toNat % 16 →
        restored.machine.registers.get r = n.registers.get r) ∧
      restored.machine = { n with registers := restored.machine.registers }) ∧
    (loaded.fault = none → 0x200 ≤ i →
      let again := (storeRegisters x).execute loaded.machine
      again.fault = none ∧ again.machine.memory = m.memory) ∧
    (spelled.fault = none →
      let digits := (loadRegisters 2).execute spelled.machine
      let v := fun r => (digits.machine.registers.get r).toNat
      digits.fault = none ∧ (v 0 ≤ 9 ∧ v 1 ≤ 9 ∧ v 2 ≤ 9) ∧
      100 * v 0 + 10 * v 1 + v 2 = (m.registers.get x).toNat ∧
      ∀ k, k < i ∨ i + 3 ≤ k → spelled.machine.memory.bytes[k]? = m.memory.bytes[k]?) := by
  intro i stored loaded spelled
  refine ⟨?_, ?_, ?_⟩
  · intro hstored n hindex hsame restored
    have hlength := m.registers.length_upTo x
    -- The last register has the number `x`, so the range is one longer than that.
    have hrange : ∀ k, InRange i (m.registers.upTo x).length k →
        n.memory.bytes[k]? = stored.machine.memory.bytes[k]? := by
      rintro k ⟨hstart, hstop⟩
      rw [hlength] at hstop
      exact hsame k hstart (Nat.le_of_lt_succ hstop)
    have hrestored : restored
        = .done { n with registers := n.registers.fill (m.registers.upTo x) } :=
      execute_loadRegisters_of_write hindex hlength hstored hrange
    rw [hrestored]
    refine ⟨rfl, fun r hr => ?_, fun r hr => ?_, rfl⟩
    · exact (Registers.get_fill_upTo _ _ x r).trans (if_pos hr)
    · exact (Registers.get_fill_upTo _ _ x r).trans (if_neg (Nat.not_le.mpr hr))
  · intro hloaded hstart again
    obtain ⟨bytes, hread⟩ := read_of_loadRegisters hloaded
    have hagain : again = .done { m with registers := m.registers.fill bytes } := by
      show (storeRegisters x).execute loaded.machine = _
      rw [show loaded = _ from execute_loadRegisters_of_read hread]
      exact execute_storeRegisters_of_read hstart hread
    simp only [hagain, Outcome.done, and_self]
  · intro hspelled digits v
    obtain ⟨hundreds, tens, ones, hbytes, hdigits, hvalue⟩ :=
      Machine.value_decimalDigits (m.registers.get x)
    have hloaded : digits = .done { spelled.machine with
        registers := spelled.machine.registers.fill [hundreds, tens, ones] } := by
      rw [← hbytes]
      exact execute_loadRegisters_storeDecimal hspelled
    have hv (r : UInt8) : v r = ([hundreds, tens, ones][(slot r).val]?.getD
        (spelled.machine.registers.get r)).toNat := by
      simp only [v, hloaded]
      exact congrArg UInt8.toNat (Registers.get_fill _ _ r)
    rw [show v 0 = hundreds.toNat from hv 0, show v 1 = tens.toNat from hv 1,
      show v 2 = ones.toNat from hv 2, hloaded]
    exact ⟨rfl, hdigits, hvalue, fun k hk => getElem?_memory_execute (storeDecimal x) m hk⟩

/-- A machine with 254 in register 3, 7 in registers 0 and 4, and the index at the first address
where writing is allowed. -/
def aboutToStore : Machine :=
  { Machine.fresh {} with
    registers := ((Registers.zero.set 0x0 7).set 0x3 254).set 0x4 7
    index := 0x200 }

/-- Registers 0 to 3 are stored, and a blank machine that has got the memory loads them. Loaded over
themselves and stored again, they leave memory alone. The digits of 254 are 2, 5 and 4. -/
theorem transfers_round_trip_copied :
    let m := aboutToStore
    let stored := (storeRegisters 0x3).execute m
    let blank := { Machine.fresh {} with index := 0x200, memory := stored.machine.memory }
    let restored := (loadRegisters 0x3).execute blank
    let loaded := (loadRegisters 0x3).execute m
    let again := (storeRegisters 0x3).execute loaded.machine
    let spelled := (storeDecimal 0x3).execute m
    let digits := (loadRegisters 2).execute spelled.machine
    (stored.fault = none ∧ restored.fault = none ∧ restored.machine.registers.get 0x0 = 7 ∧
      restored.machine.registers.get 0x3 = 254 ∧ restored.machine.registers.get 0x4 = 0) ∧
    (loaded.fault = none ∧ again.fault = none ∧ again.machine.memory = m.memory) ∧
    (spelled.fault = none ∧ digits.fault = none ∧
      100 * (digits.machine.registers.get 0).toNat + 10 * (digits.machine.registers.get 1).toNat
        + (digits.machine.registers.get 2).toNat = 254) := by
  have hstored : ((storeRegisters 0x3).execute aboutToStore).fault = none := by decide +kernel
  have hloaded : ((loadRegisters 0x3).execute aboutToStore).fault = none := by decide +kernel
  have hspelled : ((storeDecimal 0x3).execute aboutToStore).fault = none := by decide +kernel
  obtain ⟨hrestore, hagain, hspell⟩ := transfers_round_trip aboutToStore 0x3
  obtain ⟨hrestored, hcopied, hkept, -⟩ := hrestore hstored
    { Machine.fresh {} with
      index := 0x200
      memory := ((storeRegisters 0x3).execute aboutToStore).machine.memory }
    rfl fun _ _ _ => rfl
  obtain ⟨hstoredagain, hmemory⟩ := hagain hloaded (by decide)
  obtain ⟨hdigits, -, hvalue, -⟩ := hspell hspelled
  refine ⟨⟨hstored, hrestored, ?_, ?_, ?_⟩, ⟨hloaded, hstoredagain, hmemory⟩, hspelled, hdigits, ?_⟩
  · exact (hcopied 0x0 (by decide)).trans (by decide)
  · exact (hcopied 0x3 (by decide)).trans (by decide)
  · exact (hkept 0x4 (by decide)).trans (by decide)
  · rw [hvalue]
    decide

end Instruction

end Chip8
