/-!
# `Chip8.Numeral`: numbers as text

`digits` gives the digits of a number in a base and `value` reads them back.
`hex` and `decimal` are the two written forms of this library: upper-case
hexadecimal, padded with zeros to a least width, and plain decimal. `hexLiteral`
is `hex` behind its mark.

`value_digits` states that reading the digits of a number gives the number, and
`value_padded` that leading zeros do not change it.
-/

set_option autoImplicit false

namespace Chip8.Numeral

/-- The digits of `n` in `base`, the most significant first. Zero has one digit.
A base below two has no digits to divide by, so there the number stands alone. -/
def digits (base n : Nat) : List Nat :=
  if 2 ≤ base ∧ base ≤ n then digits base (n / base) ++ [n % base] else [n]
termination_by n
decreasing_by exact Nat.div_lt_self (by omega) (by omega)

/-- The number that a list of digits stands for. -/
def value (base : Nat) (ds : List Nat) : Nat :=
  ds.foldl (fun n d => n * base + d) 0

/-- Zeros before the digits, up to `width` digits in all. A longer list is not cut. -/
def padded (width : Nat) (ds : List Nat) : List Nat :=
  List.replicate (width - ds.length) 0 ++ ds

/-- The character of one digit, up to the fifteenth; letters are upper case. -/
def digitChar (d : Nat) : Char :=
  if d < 10 then Char.ofNat (0x30 + d) else Char.ofNat (0x37 + d)

/-- The digits of `n` as characters, at least `width` of them. -/
def chars (base width n : Nat) : List Char :=
  (padded width (digits base n)).map digitChar

/-- Upper-case hexadecimal with at least `width` digits. -/
def hex (width n : Nat) : String :=
  String.ofList (chars 16 width n)

/-- Upper-case hexadecimal behind the mark `0x`, with at least `width` digits. -/
def hexLiteral (width n : Nat) : String :=
  "0x" ++ hex width n

/-- Decimal without padding. -/
def decimal (n : Nat) : String :=
  String.ofList (chars 10 0 n)

/-! ### Reading back -/

/-- A digit written last adds itself and moves the others up by one place. -/
theorem value_append_singleton (base : Nat) (ds : List Nat) (d : Nat) :
    value base (ds ++ [d]) = value base ds * base + d := by
  simp [value]

/-- Reading the digits of a number gives the number. -/
theorem value_digits (base n : Nat) : value base (digits base n) = n := by
  fun_induction digits base n with
  | case1 n _ ih => rw [value_append_singleton, ih, Nat.div_add_mod']
  | case2 n _ => simp [value]

/-- Leading zeros do not change the number. -/
theorem value_padded (base width : Nat) (ds : List Nat) :
    value base (padded width ds) = value base ds := by
  have zeros : ∀ k, (List.replicate k 0).foldl (fun n d => n * base + d) 0 = 0 := by
    intro k
    induction k with
    | zero => rfl
    | succ k ih => simp [List.replicate_succ, ih]
  simp [value, padded, zeros]

end Chip8.Numeral
