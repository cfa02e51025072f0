import Mathlib.Tactic.Common

/-!
# `Chip8.Proofs.Guards`: operations that trap

Some operations are partial. An array has no element at an index behind its end, a range may leave
the array that it is taken from, two ranges of different lengths cannot be copied onto each other,
a sum or a difference may not fit into its word, and a word cannot be shifted by its whole width.
Where the machine and the screen use these operations, their definitions are total and give some
value outside of the domain. Here each operation is given with its guard, and traps there.

So what is computed with guards and does not trap has stayed inside of every array and every word.
The lemmas say, for each operation, what it gives inside of its domain.
-/

set_option autoImplicit false

namespace Chip8

/-- Why a guarded operation has no result. -/
inductive Trap where
  /-- An array has no element at this index. -/
  | index
  /-- The range does not lie in the array. -/
  | range
  /-- The ranges of a copy have different lengths. -/
  | length
  /-- The sum or the difference does not fit into its word. -/
  | overflow
  /-- The shift is by the width of the word or more. -/
  | shift
  deriving DecidableEq

/-- The result of a computation with guards. -/
abbrev Guarded (α : Type) := Except Trap α

namespace Guarded

variable {α β : Type} {n : Nat}

/-! ### The operations -/

/-- The element that an index found. -/
def found : Option α → Guarded α
  | some a => .ok a
  | none => .error .index

/-- The array with another element at an index. -/
def replace (xs : Vector α n) (i : Nat) (a : α) : Guarded (Vector α n) :=
  if h : i < n then .ok (xs.set i a h) else .error .index

/-- The elements of an array from `start` on, up to and without `stop`. -/
def slice (xs : Vector α n) (start stop : Nat) : Guarded (List α) :=
  if start ≤ stop ∧ stop ≤ n then .ok (xs.extract start stop).toList else .error .range

/-- The array with other elements from `start` on, up to and without `stop`. -/
def overwrite (xs : Vector α n) (start stop : Nat) (items : List α) : Guarded (Vector α n) :=
  if start ≤ stop ∧ stop ≤ n then
    if items.length = stop - start then
      .ok (.ofFn fun k => if start ≤ k.val then items[k.val - start]?.getD xs[k] else xs[k])
    else .error .length
  else .error .range

/-- The sum of two indices. How wide an index is depends on the host, but it has at least 32 bits,
so a sum that fits into these fits everywhere. -/
def sum (a b : Nat) : Guarded Nat := if a + b < 0x100000000 then .ok (a + b) else .error .overflow

/-- The difference of two numbers without sign. -/
def difference (a b : Nat) : Guarded Nat := if b ≤ a then .ok (a - b) else .error .overflow

/-- The number of places by which a word of some width is to be shifted. -/
def places (width k : Nat) : Guarded Nat := if k < width then .ok k else .error .shift

/-! ### Inside of their domains -/

/-- What follows a value that was computed is computed from it. -/
@[simp]
theorem ok_bind (a : α) (f : α → Guarded β) : (.ok a >>= f : Guarded β) = f a := rfl

/-- A value that is there is found. -/
theorem found_of_eq {x : Option α} {a : α} (h : x = some a) : found x = .ok a := by
  rw [h]
  rfl

/-- Replacing an element of a vector at one of its places. -/
theorem replace_of_lt (xs : Vector α n) {i : Nat} (h : i < n) (a : α) :
    replace xs i a = .ok (xs.set i a h) :=
  dif_pos h

/-- Slicing a vector between two of its places. -/
theorem slice_of_le (xs : Vector α n) {start stop : Nat} (hstart : start ≤ stop)
    (hstop : stop ≤ n) : slice xs start stop = .ok (xs.extract start stop).toList :=
  if_pos ⟨hstart, hstop⟩

/-- Overwriting a range of a vector by as many items as the range is long. -/
theorem overwrite_of_le (xs : Vector α n) {start stop : Nat} {items : List α}
    (hstop : stop ≤ n) (hitems : start + items.length = stop) :
    overwrite xs start stop items
      = .ok (.ofFn fun k => if start ≤ k.val then items[k.val - start]?.getD xs[k] else xs[k]) := by
  rw [overwrite, if_pos ⟨by omega, hstop⟩, if_pos (by omega)]

/-- A sum that fits into 32 bits. -/
theorem sum_of_lt {a b : Nat} (h : a + b < 0x100000000) : sum a b = .ok (a + b) := if_pos h

/-- A difference that is not negative. -/
theorem difference_of_le {a b : Nat} (h : b ≤ a) : difference a b = .ok (a - b) := if_pos h

/-- Shifting by fewer places than the word is wide. -/
theorem places_of_lt {width k : Nat} (h : k < width) : places width k = .ok k := if_pos h

end Guarded

end Chip8
