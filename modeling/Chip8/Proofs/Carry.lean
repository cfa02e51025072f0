import Chip8.Proofs.Footprint
import Mathlib.Tactic.Common

/-!
# `Chip8.Proofs.Carry`: what the byte loses, the flag keeps

Five operations on two registers report in the flag in every dialect: the sum, the two differences
and the two shifts. The byte that such an operation computes is cut to eight bits, and the flag is
what was cut off: the 256 of a sum, the 256 that a difference did not have to borrow, or the bit
that a shift moved out. `AluOp.Balances` says so with one equation of integers for each operation.
A byte and a bit solve it in one way only (`AluOp.Balances.unique`), so the equation says all that
there is to say about both.

The operands are read before anything is written, and the flag is written last. So it does not
matter for the equation which of the registers are the same, up to one point: a target that is the
flag register shows the flag and not the byte (`flag_keeps_what_is_lost`).
-/

set_option autoImplicit false

namespace Chip8

open Registers (slot flag)

/-! ### Bytes and bits -/

namespace AluOp

/-- The operations that report in the flag whatever the dialect. -/
def arithmetic : List AluOp := [.add, .sub, .subFrom, .shiftRight, .shiftLeft]

/-- The byte and the flag account for the operands `a` and `b`, of which a shift takes `s`. -/
def Balances (op : AluOp) (a b s byte flag : Int) : Prop :=
  match op with
  | .add => byte + 256 * flag = a + b
  | .sub => byte = a - b + 256 * (1 - flag)
  | .subFrom => byte = b - a + 256 * (1 - flag)
  | .shiftRight => 2 * byte + flag = s
  | .shiftLeft => byte + 256 * flag = 2 * s
  | .copy | .or | .and | .xor => False

/-- The operand of a shift. -/
def shifted (d : Dialect) (a b : UInt8) : UInt8 := if d.shiftReadsSecond then b else a

/-- The bit of a decision. -/
theorem toNat_decide {p q : Prop} [Decidable p] [Decidable q] (h : p ↔ q) :
    (decide p).toNat = if q then 1 else 0 := by
  by_cases hq : q <;> simp [h, hq]

/-- A shift to the right moves out the lowest bit. -/
theorem toNat_shiftRight_one (s : UInt8) :
    2 * (s >>> 1).toNat + (s &&& 1 == 1).toNat = s.toNat := by
  have hbit : (s &&& 1 == 1) = decide (s.toNat % 2 = 1) := by
    rw [Bool.eq_iff_iff, beq_iff_eq, decide_eq_true_iff, ← UInt8.toNat_inj, UInt8.toNat_and,
      UInt8.toNat_one, Nat.and_one_is_mod]
  have hrest : (s >>> 1).toNat = s.toNat / 2 := by
    rw [UInt8.toNat_shiftRight, Nat.shiftRight_eq_div_pow]
    rfl
  rw [hbit, hrest, toNat_decide Iff.rfl]
  split <;> omega

/-- A shift to the left moves out the highest bit. -/
theorem toNat_shiftLeft_one (s : UInt8) :
    (s <<< 1).toNat + 256 * (decide (0x80 ≤ s)).toNat = 2 * s.toNat := by
  have hrest : (s <<< 1).toNat = s.toNat * 2 % 256 := by
    rw [UInt8.toNat_shiftLeft, Nat.shiftLeft_eq]
    rfl
  have := s.toNat_lt
  rw [hrest, toNat_decide (q := 128 ≤ s.toNat) UInt8.le_iff_toNat_le]
  split <;> omega

/-- A sum carries 256. -/
theorem toNat_add_carry (a b : UInt8) :
    (a + b).toNat + 256 * (decide (0x100 ≤ a.toNat + b.toNat)).toNat = a.toNat + b.toNat := by
  have := a.toNat_lt
  have := b.toNat_lt
  rw [UInt8.toNat_add, toNat_decide Iff.rfl]
  split <;> omega

/-- A difference borrows 256 if the flag is not raised. -/
theorem toNat_sub_borrow (a b : UInt8) :
    ((a - b).toNat : Int) = a.toNat - b.toNat + 256 * (1 - (decide (b ≤ a)).toNat) := by
  have := a.toNat_lt
  have := b.toNat_lt
  rw [UInt8.toNat_sub, toNat_decide UInt8.le_iff_toNat_le]
  split <;> omega

/-- What an arithmetic operation computes accounts for its operands. -/
theorem balances_eval {op : AluOp} (hop : op ∈ arithmetic) (d : Dialect) (a b : UInt8) :
    ∃ byte raised, op.eval d a b = (byte, some raised) ∧
      op.Balances a.toNat b.toNat (shifted d a b).toNat byte.toNat raised.toNat := by
  cases op with
  | add =>
    have h := toNat_add_carry a b
    refine ⟨_, _, rfl, ?_⟩
    simp only [Balances]
    omega
  | sub => exact ⟨_, _, rfl, toNat_sub_borrow a b⟩
  | subFrom => exact ⟨_, _, rfl, toNat_sub_borrow b a⟩
  | shiftRight =>
    have h := toNat_shiftRight_one (shifted d a b)
    refine ⟨shifted d a b >>> 1, shifted d a b &&& 1 == 1, rfl, ?_⟩
    simp only [Balances]
    omega
  | shiftLeft =>
    have h := toNat_shiftLeft_one (shifted d a b)
    refine ⟨shifted d a b <<< 1, decide (0x80 ≤ shifted d a b), rfl, ?_⟩
    simp only [Balances]
    omega
  | copy | or | and | xor => exact absurd hop (by decide)

/-- There is one byte and one bit that account for the operands. -/
theorem Balances.unique {op : AluOp} {a b s : Int} {byte byte' : UInt8} {raised raised' : Bool}
    (h : op.Balances a b s byte.toNat raised.toNat)
    (h' : op.Balances a b s byte'.toNat raised'.toNat) : byte = byte' ∧ raised = raised' := by
  have hbyte := byte.toNat_lt
  have hbyte' := byte'.toNat_lt
  have hboth : byte.toNat = byte'.toNat ∧ raised.toNat = raised'.toNat := by
    have := raised.toNat_le
    have := raised'.toNat_le
    cases op <;> simp only [Balances] at h h' <;> omega
  refine ⟨UInt8.toNat_inj.mp hboth.1, ?_⟩
  cases raised <;> cases raised' <;> simp_all

end AluOp

/-! ### Machines -/

namespace Machine

/-- An operation that reports in the flag puts its byte into the first register and then the bit
into the flag register. -/
theorem combine_of_eval {m : Machine} {op : AluOp} {x y byte : UInt8} {raised : Bool}
    (h : op.eval m.dialect (m.registers.get x) (m.registers.get y) = (byte, some raised)) :
    (m.combine op x y).registers = (m.registers.set x byte).setFlag raised := by
  simp only [combine, h]
  rfl

end Machine

/-- The flag register as a number, after the flag was set. -/
theorem Registers.toNat_get_setFlag (r : Registers) (raised : Bool) :
    ((r.setFlag raised).get flag).toNat = raised.toNat := by
  rw [setFlag, get_set, if_pos rfl]
  cases raised <;> rfl

namespace Instruction

/-- Arithmetic loses nothing. Take any of the five arithmetic operations, on any machine and with
any operands, which may name one register or the flag register twice. It succeeds, and the flag is
then zero or one. Unless the first register is the flag register, its byte and the flag account for
the operands as they were before. If it is, the flag is still the one of the equation, and the byte
that goes with it is not kept. The equation has no other solution, so it determines what is kept in
both cases. No other register changes. -/
theorem flag_keeps_what_is_lost (op : AluOp) (hop : op ∈ AluOp.arithmetic) (x y : UInt8)
    (m : Machine) :
    let later := (alu op x y).execute m
    let old := fun r => ((m.registers.get r).toNat : Int)
    let new := fun r => ((later.machine.registers.get r).toNat : Int)
    let source := if m.dialect.shiftReadsSecond then old y else old x
    later.fault = none ∧
    (new flag = 0 ∨ new flag = 1) ∧
    (slot x ≠ slot flag → op.Balances (old x) (old y) source (new x) (new flag)) ∧
    (slot x = slot flag →
      ∃ byte : UInt8, op.Balances (old x) (old y) source byte.toNat (new flag)) ∧
    (∀ (byte : UInt8) (raised : Bool),
      op.Balances (old x) (old y) source byte.toNat raised.toNat →
        new flag = raised.toNat ∧ (slot x ≠ slot flag → new x = byte.toNat)) ∧
    ∀ r : UInt8, slot r ≠ slot x → slot r ≠ slot flag →
      later.machine.registers.get r = m.registers.get r := by
  intro later old new source
  obtain ⟨byte, raised, heval, hbalances⟩ :=
    AluOp.balances_eval hop m.dialect (m.registers.get x) (m.registers.get y)
  have hregisters : later.machine.registers = (m.registers.set x byte).setFlag raised :=
    Machine.combine_of_eval heval
  have hsource : source
      = ((AluOp.shifted m.dialect (m.registers.get x) (m.registers.get y)).toNat : Int) := by
    show (if m.dialect.shiftReadsSecond then _ else _) = _
    unfold AluOp.shifted
    split <;> rfl
  have hflag : new flag = raised.toNat := by
    show ((later.machine.registers.get flag).toNat : Int) = _
    rw [hregisters, Registers.toNat_get_setFlag]
  have hbyte (hx : slot x ≠ slot flag) : new x = byte.toNat := by
    show ((later.machine.registers.get x).toNat : Int) = _
    rw [hregisters, Registers.get_setFlag_of_ne _ _ hx, Registers.get_set, if_pos rfl]
  rw [hflag, hsource]
  refine ⟨rfl, ?_, ?_, fun _ => ⟨byte, hbalances⟩, ?_, ?_⟩
  · cases raised
    · exact .inl rfl
    · exact .inr rfl
  · intro hx
    rw [hbyte hx]
    exact hbalances
  · intro other raised' hother
    obtain ⟨rfl, rfl⟩ := hbalances.unique hother
    exact ⟨rfl, hbyte⟩
  · intro r hx hr
    rw [hregisters, Registers.get_setFlag_of_ne _ _ hr, Registers.get_set, if_neg hx]

/-- A machine with 200 in register 3 and 100 in the flag register. -/
def aboutToCarry : Machine :=
  { Machine.fresh {} with registers := (Registers.zero.set 0x3 200).set 0xF 100 }

/-- With the flag register as the second operand, 200 less 100 is 100 and nothing is borrowed. With
it as the target, 100 and 200 carry, and the other 44 are not kept. -/
theorem flag_keeps_what_is_lost_aliased :
    let differ := ((alu .sub 0x3 0xF).execute aboutToCarry).machine.registers
    let sum := ((alu .add 0xF 0x3).execute aboutToCarry).machine.registers
    (AluOp.sub ∈ AluOp.arithmetic ∧ slot 0x3 ≠ slot flag ∧
      AluOp.Balances .sub 200 100 200 (differ.get 0x3).toNat (differ.get flag).toNat ∧
      ((differ.get 0x3).toNat : Int) = 100 ∧ ((differ.get flag).toNat : Int) = 1) ∧
    (AluOp.add ∈ AluOp.arithmetic ∧ slot 0xF = slot flag ∧
      ((sum.get flag).toNat : Int) = 1 ∧ sum.get 0x3 = 200) := by
  intro differ sum
  have hsub : AluOp.sub ∈ AluOp.arithmetic := by decide
  have hadd : AluOp.add ∈ AluOp.arithmetic := by decide
  have hthree : slot 0x3 ≠ slot flag := by decide
  obtain ⟨-, -, hdiffer, -, hdetermined, -⟩ :=
    flag_keeps_what_is_lost .sub hsub 0x3 0xF aboutToCarry
  obtain ⟨-, -, -, -, hcarried, hkept⟩ := flag_keeps_what_is_lost .add hadd 0xF 0x3 aboutToCarry
  have hborrow : AluOp.Balances .sub 200 100 200 (100 : UInt8).toNat true.toNat := rfl
  have hcarry : AluOp.Balances .add 100 200 100 (44 : UInt8).toNat true.toNat := rfl
  obtain ⟨hflag, hbyte⟩ := hdetermined 100 true hborrow
  exact ⟨⟨hsub, hthree, hdiffer hthree, hbyte hthree, hflag⟩, hadd, rfl,
    (hcarried 44 true hcarry).1, hkept 0x3 hthree hthree⟩

end Instruction

end Chip8
