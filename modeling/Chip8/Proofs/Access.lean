import Chip8.Proofs.Failure
import Chip8.Proofs.GuardedMachine
import Mathlib.Tactic.Common

/-!
# `Chip8.Proofs.Access`: a check of two ends checks every address

An access to memory compares the ends of its range with the limits of memory, and looks at no
address in between. Here an access is described address by address. It is granted if every address
of the range is allowed, and otherwise its fault names the lowest one that is not
(`Memory.LowestRefused`). The two descriptions agree because the allowed addresses have no gap:
only the first address of the range can be too low, and the first one that is too high is the start
or the end of memory, whichever comes later.

`Memory.ReadIsExact` and `Machine.WriteIsExact` list what follows for the two kinds of access, and
`access_is_checked_exactly` proves it of every one.
-/

set_option autoImplicit false

namespace Chip8

namespace Memory

/-! ### The addresses of an access -/

/-- A program may read this address. -/
def Readable (k : Nat) : Prop := k < size

/-- A program may write to this address. -/
def Writable (k : Nat) : Prop := programStart ≤ k ∧ k < size

/-- `k` is the lowest address of a range that is not allowed. -/
structure LowestRefused (allowed : Nat → Prop) (address length k : Nat) : Prop where
  inRange : InRange address length k
  refused : ¬ allowed k
  below : ∀ j, InRange address length j → j < k → allowed j

variable {address length k : Nat}

/-- A range is readable if it is empty or ends inside of memory. -/
theorem readable_iff :
    (∀ k, InRange address length k → Readable k) ↔ length = 0 ∨ address + length ≤ size := by
  unfold InRange Readable
  constructor
  · intro hall
    -- The last address of the range stands for all of them.
    have hlast := hall (address + length - 1)
    omega
  · intro hend k hk
    omega

/-- A range is writable if it is empty or lies between the reserved part and the end of memory. -/
theorem writable_iff :
    (∀ k, InRange address length k → Writable k) ↔
      length = 0 ∨ programStart ≤ address ∧ address + length ≤ size := by
  unfold InRange Writable
  constructor
  · intro hall
    have hfirst := hall address
    have hlast := hall (address + length - 1)
    omega
  · intro hends k hk
    omega

/-- A read is refused for the part of its range past the end of memory, and the lowest address there
is the first one past the end or the start of the range. -/
theorem lowestRefused_readable_iff :
    LowestRefused Readable address length k ↔
      (0 < length ∧ size < address + length) ∧ k = max address size := by
  unfold Readable
  constructor
  · rintro ⟨⟨hstart, hstop⟩, hrefused, hbelow⟩
    have hfirst := hbelow address
    have hpast := hbelow size
    unfold InRange at hfirst hpast
    omega
  · rintro ⟨⟨hpos, hend⟩, rfl⟩
    exact ⟨⟨by omega, by omega⟩, by omega, fun j ⟨hj, _⟩ hbelow => by omega⟩

/-- A write is refused for the part of its range below programs, which is then its start, or else
for the part past the end of memory. -/
theorem lowestRefused_writable_iff :
    LowestRefused Writable address length k ↔
      (0 < length ∧ address < programStart ∧ k = address) ∨
      (0 < length ∧ programStart ≤ address ∧ size < address + length ∧
        k = max address size) := by
  have hlimits : programStart ≤ size := by decide
  unfold Writable
  constructor
  · rintro ⟨⟨hstart, hstop⟩, hrefused, hbelow⟩
    -- The first address decides whether the range starts too low. If it does not, no later address
    -- is too low, and the end of memory is the next place to look.
    have hfirst := hbelow address
    have hpast := hbelow size
    unfold InRange at hfirst hpast
    omega
  · rintro (⟨hpos, hlow, rfl⟩ | ⟨hpos, hhigh, hend, rfl⟩)
    · exact ⟨⟨by omega, by omega⟩, by omega, fun j ⟨hj, _⟩ hbelow => by omega⟩
    · exact ⟨⟨by omega, by omega⟩, by omega, fun j ⟨hj, _⟩ hbelow => by omega⟩

/-! ### Faults -/

/-- The fault of a read, by the lowest address that memory does not have. -/
theorem read_eq_error_iff_lowestRefused (m : Memory) (address length : Nat) (fault : Fault) :
    m.read address length = .error fault ↔
      ∃ k, LowestRefused Readable address length k ∧ fault = .outOfBounds k := by
  rw [read_eq_error_iff]
  simp only [lowestRefused_readable_iff, and_assoc, exists_and_left, exists_eq_left]
  rfl

/-- The fault of a write, by the lowest address that may not be written to. -/
theorem write_eq_error_iff_lowestRefused (m : Memory) (address : Nat) (bytes : List UInt8)
    (fault : Fault) :
    m.write address bytes = .error fault ↔
      ∃ k, LowestRefused Writable address bytes.length k ∧
        ((size ≤ k ∧ fault = .outOfBounds k) ∨ (k < programStart ∧ fault = .reservedWrite k)) := by
  have hlimits : programStart ≤ size := by decide
  rw [write_eq_error_iff]
  simp only [lowestRefused_writable_iff]
  constructor
  · rintro (⟨hpos, hlow, rfl⟩ | ⟨hpos, hhigh, hend, rfl⟩)
    · exact ⟨address, .inl ⟨hpos, hlow, rfl⟩, .inr ⟨hlow, rfl⟩⟩
    · exact ⟨max address size, .inr ⟨hpos, hhigh, hend, rfl⟩, .inl ⟨Nat.le_max_right _ _, rfl⟩⟩
  · rintro ⟨k, ⟨hpos, hlow, rfl⟩ | ⟨hpos, hhigh, hend, rfl⟩, ⟨hk, rfl⟩ | ⟨hk, rfl⟩⟩
    -- No address is both reserved and behind memory, which leaves the two cases in the middle.
    · omega
    · exact .inl ⟨hpos, hlow, rfl⟩
    · exact .inr ⟨hpos, hhigh, hend, rfl⟩
    · omega

end Memory

/-! ### Both accesses -/

/-- A write that memory grants succeeds and puts that memory in place. -/
theorem Machine.write_of_ok {m : Machine} {address : Nat} {bytes : List UInt8} {memory : Memory}
    (h : m.memory.write address bytes = .ok memory) :
    m.write address bytes = .done { m with memory } := by
  rw [write, h]
  rfl

/-- A machine's write succeeds exactly when memory grants it. -/
theorem Machine.fault_write_eq_none_iff {m : Machine} {address : Nat} {bytes : List UInt8} :
    (m.write address bytes).fault = none ↔
      ∃ memory, m.memory.write address bytes = .ok memory :=
  Outcome.fault_ofPart_eq_none_iff

/-- The empty write is guarded up to the end of memory, and every other one everywhere. -/
theorem Guarded.writeMemory_eq_of_le (m : Machine) {address : Nat} {bytes : List UInt8}
    (hempty : bytes = [] → address ≤ 0x1000) (hsum : address + bytes.length < 0x100000000) :
    writeMemory m address bytes = .ok (m.write address bytes) := by
  by_cases hnone : bytes = []
  · subst hnone
    rw [writeMemory, (write_nil_eq_ok_iff m.memory address).mpr (hempty rfl), ok_bind]
    exact ofPart_eq fun _ _ => rfl
  · exact writeMemory_eq m hnone hsum

open Memory (InRange Readable Writable LowestRefused size programStart)

/-- A read of `length` bytes from `address` on goes by the addresses of its range. -/
structure Memory.ReadIsExact (m : Memory) (address length : Nat) : Prop where
  /-- It succeeds if and only if it is empty or every address of the range may be read. -/
  granted_iff : (∃ bytes, m.read address length = .ok bytes) ↔
    length = 0 ∨ ∀ k, InRange address length k → Readable k
  /-- It then gives the bytes of the range. -/
  bytes_of_granted : ∀ bytes, m.read address length = .ok bytes →
    bytes.length = length ∧ ∀ j < length, bytes[j]? = m.bytes[address + j]?
  /-- It fails with the lowest address of the range that memory does not have. -/
  refused_iff : ∀ fault, m.read address length = .error fault ↔
    ∃ k, LowestRefused Readable address length k ∧ fault = .outOfBounds k
  /-- It does not trap if the end of the range is an index. -/
  guarded : address + length < 0x100000000 →
    Guarded.read m address length = .ok (m.read address length)

/-- A write of `bytes` from `address` on goes by the addresses of its range. -/
structure Machine.WriteIsExact (m : Machine) (address : Nat) (bytes : List UInt8) : Prop where
  /-- It succeeds if and only if it is empty or every address of the range may be written to. -/
  granted_iff : (m.write address bytes).fault = none ↔
    bytes = [] ∨ ∀ k, InRange address bytes.length k → Writable k
  /-- Memory then holds the bytes at the range and is what it was elsewhere. -/
  bytes_of_granted : (m.write address bytes).fault = none →
    ∀ k : Nat, (m.write address bytes).machine.memory.bytes[k]? =
      if address ≤ k ∧ k < address + bytes.length then bytes[k - address]?
      else m.memory.bytes[k]?
  /-- The bytes can be read back from the range. -/
  read_of_granted : (m.write address bytes).fault = none →
    (m.write address bytes).machine.memory.read address bytes.length = .ok bytes
  /-- The machine around memory stays. -/
  frame : (m.write address bytes).machine
    = { m with memory := (m.write address bytes).machine.memory }
  /-- It fails with the lowest address of the range that may not be written to, and the kind of the
  fault is the side on which this address lies. -/
  refused_iff : ∀ fault, (m.write address bytes).fault = some fault ↔
    ∃ k, LowestRefused Writable address bytes.length k ∧
      ((size ≤ k ∧ fault = .outOfBounds k) ∨ (k < programStart ∧ fault = .reservedWrite k))
  /-- Nothing changes if it fails. -/
  unchanged_of_refused : (m.write address bytes).fault ≠ none →
    (m.write address bytes).machine = m
  /-- It does not trap if the end of the range is an index and, for the empty write, not behind the
  end of memory. -/
  guarded : (bytes = [] → address ≤ size) → address + bytes.length < 0x100000000 →
    Guarded.writeMemory m address bytes = .ok (m.write address bytes)

namespace Machine

/-- Memory is checked exactly. On any machine, a read of any length and a write of any bytes, from
any address on, succeed if and only if they are empty or every single address of the range is
allowed: below the end of memory for a read, and not in the reserved part either for a write. What
is read is the range, what is written can be read back, and nothing else changes. An access that
fails changes nothing at all, and its fault is the one of the lowest address that is not
allowed. -/
theorem access_is_checked_exactly (m : Machine) (address : Nat) :
    (∀ length, m.memory.ReadIsExact address length) ∧ ∀ bytes, m.WriteIsExact address bytes := by
  constructor
  · intro length
    exact {
      granted_iff := by rw [Memory.exists_read_iff, Memory.readable_iff, ← or_assoc, or_self]
      bytes_of_granted := fun bytes hread =>
        ((m.memory.read_eq_ok_iff address length bytes).mp hread).2
      refused_iff := m.memory.read_eq_error_iff_lowestRefused address length
      guarded := Guarded.read_eq m.memory }
  · intro bytes
    -- The machine's write is the memory's, put in its place.
    have hmemory (hgranted : (m.write address bytes).fault = none) :
        m.memory.write address bytes = .ok (m.write address bytes).machine.memory := by
      obtain ⟨memory, hwrite⟩ := fault_write_eq_none_iff.mp hgranted
      rw [write_of_ok hwrite]
      exact hwrite
    exact {
      granted_iff := by
        rw [fault_write_eq_none_iff, Memory.exists_write_iff, Memory.writable_iff,
          List.length_eq_zero_iff, ← or_assoc, or_self]
      bytes_of_granted := fun hgranted =>
        ((m.memory.write_eq_ok_iff _ address bytes).mp (hmemory hgranted)).2
      read_of_granted := fun hgranted => Memory.read_of_write (hmemory hgranted)
      frame := Outcome.machine_ofPart
        (P := fun later => later = { m with memory := later.memory }) rfl fun _ => rfl
      refused_iff := fun fault => by
        rw [← Memory.write_eq_error_iff_lowestRefused]
        exact Outcome.fault_ofPart_iff
      unchanged_of_refused := fun hrefused => by
        obtain ⟨fault, hfault⟩ := Option.ne_none_iff_exists'.mp hrefused
        exact Outcome.machine_ofPart_of_fault hfault
      guarded := Guarded.writeMemory_eq_of_le m }

/-- Accesses that straddle a limit of memory are refused for the first address on the other side,
and two bytes right before the end are written. -/
theorem access_is_checked_exactly_straddling :
    let m := fresh {}
    LowestRefused Writable 0x1FF 2 0x1FF ∧
    (m.write 0x1FF [1, 2]).fault = some (.reservedWrite 0x1FF) ∧
    LowestRefused Writable 0xFFF 2 0x1000 ∧
    (m.write 0xFFF [1, 2]).fault = some (.outOfBounds 0x1000) ∧
    m.memory.read 0xFFF 2 = .error (.outOfBounds 0x1000) ∧
    (m.write 0xFFE [1, 2]).fault = none ∧
    (m.write 0xFFE [1, 2]).machine.memory.read 0xFFE 2 = .ok [1, 2] := by
  intro m
  have hlow : LowestRefused Writable 0x1FF 2 0x1FF :=
    Memory.lowestRefused_writable_iff.mpr (.inl (by decide))
  have hhigh : LowestRefused Writable 0xFFF 2 0x1000 :=
    Memory.lowestRefused_writable_iff.mpr (.inr (by decide))
  have hbehind : LowestRefused Readable 0xFFF 2 0x1000 :=
    Memory.lowestRefused_readable_iff.mpr (by decide)
  have hgranted := (access_is_checked_exactly m 0xFFE).2 [1, 2]
  have hfits : ∀ k, InRange 0xFFE 2 k → Writable k :=
    Memory.writable_iff.mpr (.inr (by decide))
  refine ⟨hlow, ?_, hhigh, ?_, ?_, hgranted.granted_iff.mpr (.inr hfits),
    hgranted.read_of_granted (hgranted.granted_iff.mpr (.inr hfits))⟩
  · exact (((access_is_checked_exactly m 0x1FF).2 [1, 2]).refused_iff _).mpr
      ⟨0x1FF, hlow, .inr (by decide)⟩
  · exact (((access_is_checked_exactly m 0xFFF).2 [1, 2]).refused_iff _).mpr
      ⟨0x1000, hhigh, .inl (by decide)⟩
  · exact (((access_is_checked_exactly m 0xFFF).1 2).refused_iff _).mpr ⟨0x1000, hbehind, rfl⟩

end Machine

end Chip8
