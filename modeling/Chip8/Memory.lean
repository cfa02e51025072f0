import Chip8.Fault

/-!
# `Chip8.Memory`: the addressable bytes

Memory has 4096 bytes. The first 512 belong to the interpreter, and a program may
read them but not write them. Programs start right after.

`read` and `write` are the accesses of a program and check the whole range first, so
an access either happens in full or not at all. An access to no byte at all is always
granted. `store` is the unchecked write below them, which drops what falls outside.

`getElem?_store` says which byte is where after a store.
-/

set_option autoImplicit false

namespace Chip8

/-- The contents of memory. -/
@[ext]
structure Memory where
  bytes : Vector UInt8 4096
  deriving DecidableEq

namespace Memory

/-- The number of bytes. -/
def size : Nat := 4096

/-- The address where programs start. Below it nothing may be written. -/
def programStart : Nat := 0x200

/-- The most bytes that a program can have. -/
def programLimit : Nat := size - programStart

/-- Every byte is zero. -/
def zero : Memory := ⟨Vector.replicate 4096 0⟩

/-- The bytes from `address` on, `length` of them as far as memory reaches. -/
def slice (m : Memory) (address length : Nat) : List UInt8 :=
  (m.bytes.extract address (address + length)).toList

/-- Puts bytes into memory from `address` on. Bytes past the end are dropped. -/
def store (m : Memory) (address : Nat) : List UInt8 → Memory
  | [] => m
  | byte :: rest => store ⟨m.bytes.setIfInBounds address byte⟩ (address + 1) rest

/-- The fault of an access from `address` on that reaches past the end: it names the first
address of the range that memory does not have. -/
def pastEnd (address : Nat) : Fault := .outOfBounds (max address size)

/-- The `length` bytes from `address` on. -/
def read (m : Memory) (address length : Nat) : Except Fault (List UInt8) :=
  if length = 0 then .ok []
  else if address + length ≤ size then .ok (m.slice address length)
  else .error (pastEnd address)

/-- Memory with `bytes` from `address` on. The reserved part is checked before the end. -/
def write (m : Memory) (address : Nat) (bytes : List UInt8) : Except Fault Memory :=
  if bytes = [] then .ok m
  else if address < programStart then .error (.reservedWrite address)
  else if address + bytes.length ≤ size then .ok (m.store address bytes)
  else .error (pastEnd address)

/-- The opcode in the two bytes from `address` on. -/
def readOpcode (m : Memory) (address : Nat) : Except Fault Opcode :=
  if h : address + 2 ≤ 4096 then .ok (.ofBytes m.bytes[address] m.bytes[address + 1])
  else .error (pastEnd address)

/-- Memory with a program in its place. What the program does not cover stays. -/
def load (m : Memory) (program : List UInt8) : Except Fault Memory :=
  if programLimit < program.length then
    .error (.programTooLarge program.length programLimit)
  else m.write programStart program

/-! ### The bytes after a store, and in a slice -/

/-- A store puts its bytes where memory has an address for them, and leaves the others. -/
theorem getElem?_store (m : Memory) (a : Nat) (bs : List UInt8) (k : Nat) :
    (m.store a bs).bytes[k]? =
      if a ≤ k ∧ k < a + bs.length ∧ k < 4096 then bs[k - a]? else m.bytes[k]? := by
  induction bs generalizing m a with
  | nil =>
    rw [if_neg (by simp only [List.length_nil]; omega)]
    rfl
  | cons b bs ih =>
    rw [store, ih, List.length_cons, Vector.getElem?_setIfInBounds]
    -- Before the first byte, at it, and after it.
    rcases Nat.lt_trichotomy k a with h | rfl | h
    · rw [if_neg (by omega), if_neg (by omega), if_neg (by omega)]
    · rw [if_neg (by omega), if_pos rfl]
      by_cases hk : k < 4096
      · rw [if_pos hk, if_pos (by omega), Nat.sub_self, List.getElem?_cons_zero]
      · rw [if_neg hk, if_neg (by omega), Vector.getElem?_eq_none (by omega)]
    · rw [show k - a = k - (a + 1) + 1 by omega, List.getElem?_cons_succ,
        if_neg (c := a = k) (by omega)]
      simp only [show a + 1 ≤ k ∧ k < a + 1 + bs.length ∧ k < 4096
        ↔ a ≤ k ∧ k < a + (bs.length + 1) ∧ k < 4096 by omega]

/-- A slice inside of memory has the length that was asked for. -/
theorem length_slice (m : Memory) {a n : Nat} (h : a + n ≤ 4096) : (m.slice a n).length = n := by
  simp only [slice, Vector.length_toList]
  omega

/-- A slice inside of memory holds the bytes from its start on. -/
theorem getElem?_slice (m : Memory) {a n : Nat} (h : a + n ≤ 4096) (k : Nat) :
    (m.slice a n)[k]? = if k < n then m.bytes[a + k]? else none := by
  have : min (a + n) 4096 - a = n := by omega
  simp [slice, Vector.getElem?_extract, this]

end Memory

end Chip8
