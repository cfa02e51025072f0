import Chip8.Memory

/-!
# `Chip8.Proofs.MemoryAccess`: reads and writes

An access to memory is granted or refused, and the two ends of its range decide which of them.
`read_eq_ok_iff` and `write_eq_ok_iff` say when an access is granted and what it then gives, byte by
byte and with nothing left open. `read_eq_error_iff` and `write_eq_error_iff` say when it is refused
and with which fault. What was written can be read back (`read_of_write`), and to write what was
read changes nothing (`write_of_read`).
-/

set_option autoImplicit false

namespace Chip8

namespace Memory

/-- `k` is one of the `length` addresses from `address` on. -/
def InRange (address length k : Nat) : Prop := address ≤ k ∧ k < address + length

variable {m m' : Memory} {address length : Nat} {bytes : List UInt8}

/-! ### Reads -/

/-- A read that is granted gives the bytes of its range, and no other list. -/
theorem read_eq_ok_iff (m : Memory) (address length : Nat) (bytes : List UInt8) :
    m.read address length = .ok bytes ↔
      (length = 0 ∨ address + length ≤ size) ∧ bytes.length = length ∧
        ∀ j < length, bytes[j]? = m.bytes[address + j]? := by
  unfold read
  by_cases hempty : length = 0
  · subst hempty
    rw [if_pos rfl, Except.ok.injEq, eq_comm]
    simp
  rw [if_neg hempty]
  by_cases hend : address + length ≤ size
  · rw [if_pos hend, Except.ok.injEq]
    constructor
    · rintro rfl
      refine ⟨.inr hend, m.length_slice hend, fun j hj => ?_⟩
      rw [getElem?_slice m hend, if_pos hj]
    · rintro ⟨-, hlength, hbytes⟩
      -- The length and the bytes below it leave one list.
      refine List.ext_getElem? fun j => ?_
      rw [getElem?_slice m hend]
      by_cases hj : j < length
      · rw [if_pos hj, hbytes j hj]
      · rw [if_neg hj, List.getElem?_eq_none (by omega)]
  · rw [if_neg hend]
    simp [hempty, hend]

/-- A read fails exactly when it takes a byte past the end of memory, and this is what it reports.
-/
theorem read_eq_error_iff (m : Memory) (address length : Nat) (fault : Fault) :
    m.read address length = .error fault ↔
      (0 < length ∧ size < address + length) ∧ fault = pastEnd address := by
  unfold read
  constructor
  · intro h
    -- Nothing is to be read, the range fits, or it does not.
    split at h
    · exact nomatch h
    · split at h
      · exact nomatch h
      · cases h
        exact ⟨⟨by omega, by omega⟩, rfl⟩
  · rintro ⟨⟨hpos, hend⟩, rfl⟩
    rw [if_neg (Nat.ne_of_gt hpos), if_neg (Nat.not_le.mpr hend)]

/-- A read succeeds exactly when it is empty or ends inside of memory. -/
theorem exists_read_iff (m : Memory) :
    (∃ bytes, m.read address length = .ok bytes) ↔ length = 0 ∨ address + length ≤ size := by
  constructor
  · rintro ⟨bytes, hread⟩
    exact ((m.read_eq_ok_iff address length bytes).mp hread).1
  · intro hgranted
    cases hread : m.read address length with
    | ok bytes => exact ⟨bytes, rfl⟩
    | error fault =>
      have := ((m.read_eq_error_iff address length fault).mp hread).1
      omega

/-- A read has as many bytes as it was asked for. -/
theorem length_of_read (hread : m.read address length = .ok bytes) : bytes.length = length :=
  ((m.read_eq_ok_iff address length bytes).mp hread).2.1

/-- A read depends on the bytes of its range alone. -/
theorem read_congr
    (h : ∀ k, InRange address length k → m'.bytes[k]? = m.bytes[k]?)
    (hread : m.read address length = .ok bytes) : m'.read address length = .ok bytes := by
  obtain ⟨hgranted, hlength, hbytes⟩ := (m.read_eq_ok_iff _ _ _).mp hread
  refine (m'.read_eq_ok_iff _ _ _).mpr ⟨hgranted, hlength, fun j hj => ?_⟩
  rw [hbytes j hj, h (address + j) ⟨by omega, by omega⟩]

/-! ### Writes -/

/-- Memory is given by its bytes. -/
theorem ext_getElem? (h : ∀ k : Nat, m.bytes[k]? = m'.bytes[k]?) : m = m' := by
  refine Memory.ext (Vector.ext fun k hk => Option.some.inj ?_)
  rw [← Vector.getElem?_eq_getElem hk, ← Vector.getElem?_eq_getElem hk]
  exact h k

/-- A store that ends in memory puts all of its bytes there. -/
theorem getElem?_store_of_le (m : Memory) {address : Nat} {bytes : List UInt8}
    (hend : address + bytes.length ≤ size) (k : Nat) :
    (m.store address bytes).bytes[k]? =
      if address ≤ k ∧ k < address + bytes.length then bytes[k - address]? else m.bytes[k]? := by
  have hwithin : address ≤ k ∧ k < address + bytes.length ∧ k < 4096
      ↔ address ≤ k ∧ k < address + bytes.length := by
    unfold size at hend
    omega
  rw [getElem?_store]
  simp only [hwithin]

/-- A write that is granted puts its bytes at the range and leaves the others, and there is no
other memory of which this can be said. -/
theorem write_eq_ok_iff (m m' : Memory) (address : Nat) (bytes : List UInt8) :
    m.write address bytes = .ok m' ↔
      (bytes = [] ∨ programStart ≤ address ∧ address + bytes.length ≤ size) ∧
        ∀ k : Nat, m'.bytes[k]? =
          if address ≤ k ∧ k < address + bytes.length then bytes[k - address]?
          else m.bytes[k]? := by
  unfold write
  by_cases hempty : bytes = []
  · subst hempty
    rw [if_pos rfl, Except.ok.injEq]
    constructor
    · rintro rfl
      exact ⟨.inl rfl, fun k => (if_neg (by simp only [List.length_nil]; omega)).symm⟩
    · rintro ⟨-, hbytes⟩
      refine ext_getElem? fun k => ?_
      rw [hbytes, if_neg (by simp only [List.length_nil]; omega)]
  rw [if_neg hempty]
  by_cases hstart : address < programStart
  · rw [if_pos hstart]
    refine iff_of_false nofun ?_
    rintro ⟨hnone | ⟨hhigh, -⟩, -⟩
    · exact hempty hnone
    · omega
  rw [if_neg hstart]
  by_cases hend : address + bytes.length ≤ size
  · rw [if_pos hend, Except.ok.injEq]
    constructor
    · rintro rfl
      exact ⟨.inr ⟨Nat.le_of_not_lt hstart, hend⟩, m.getElem?_store_of_le hend⟩
    · rintro ⟨-, hbytes⟩
      exact ext_getElem? fun k => (m.getElem?_store_of_le hend k).trans (hbytes k).symm
  · -- A refused write gives no memory, and the right side promises one only for what fits.
    rw [if_neg hend]
    refine iff_of_false nofun ?_
    rintro ⟨hnone | ⟨-, hfits⟩, -⟩
    · exact hempty hnone
    · exact hend hfits

/-- A write fails exactly when it starts below programs or, if not, ends past memory, and it reports
the first of the two that holds. -/
theorem write_eq_error_iff (m : Memory) (address : Nat) (bytes : List UInt8) (fault : Fault) :
    m.write address bytes = .error fault ↔
      (0 < bytes.length ∧ address < programStart ∧ fault = .reservedWrite address) ∨
      (0 < bytes.length ∧ programStart ≤ address ∧ size < address + bytes.length ∧
        fault = pastEnd address) := by
  unfold write
  constructor
  · intro h
    split at h
    · exact nomatch h
    · rename_i hempty
      have hpos : 0 < bytes.length := List.length_pos_iff.mpr hempty
      -- The reserved part is checked before the end.
      split at h
      · rename_i hlow
        cases h
        exact .inl ⟨hpos, hlow, rfl⟩
      · rename_i hlow
        split at h
        · exact nomatch h
        · rename_i hend
          cases h
          exact .inr ⟨hpos, Nat.le_of_not_lt hlow, Nat.lt_of_not_le hend, rfl⟩
  · rintro (⟨hpos, hlow, rfl⟩ | ⟨hpos, hhigh, hend, rfl⟩)
    · rw [if_neg (List.length_pos_iff.mp hpos), if_pos hlow]
    · rw [if_neg (List.length_pos_iff.mp hpos), if_neg (Nat.not_lt.mpr hhigh),
        if_neg (Nat.not_le.mpr hend)]

/-- A write succeeds exactly when it is empty or lies between the reserved part and the end of
memory. -/
theorem exists_write_iff (m : Memory) (address : Nat) (bytes : List UInt8) :
    (∃ m', m.write address bytes = .ok m') ↔
      bytes = [] ∨ programStart ≤ address ∧ address + bytes.length ≤ size := by
  constructor
  · rintro ⟨m', hwrite⟩
    exact ((m.write_eq_ok_iff m' address bytes).mp hwrite).1
  · intro hgranted
    cases hwrite : m.write address bytes with
    | ok m' => exact ⟨m', rfl⟩
    | error fault =>
      have hrefused := (m.write_eq_error_iff address bytes fault).mp hwrite
      rw [← List.length_eq_zero_iff] at hgranted
      omega

/-- A write changes only the bytes from its address on, as many as it writes. -/
theorem getElem?_write (hwrite : m.write address bytes = .ok m') {k : Nat}
    (hk : k < address ∨ address + bytes.length ≤ k) : m'.bytes[k]? = m.bytes[k]? := by
  rw [((m.write_eq_ok_iff m' address bytes).mp hwrite).2, if_neg (by omega)]

/-! ### Writes and reads -/

/-- What was written can be read back. -/
theorem read_of_write (hwrite : m.write address bytes = .ok m') :
    m'.read address bytes.length = .ok bytes := by
  obtain ⟨hgranted, hbytes⟩ := (m.write_eq_ok_iff m' address bytes).mp hwrite
  rw [← List.length_eq_zero_iff] at hgranted
  refine (m'.read_eq_ok_iff _ _ _).mpr ⟨by omega, rfl, fun j hj => ?_⟩
  rw [hbytes, if_pos ⟨by omega, by omega⟩, Nat.add_sub_cancel_left]

/-- To write what was read, where writing is allowed, changes nothing. -/
theorem write_of_read (hstart : programStart ≤ address)
    (hread : m.read address length = .ok bytes) :
    m.write address bytes = .ok m := by
  obtain ⟨hgranted, rfl, hbytes⟩ := (m.read_eq_ok_iff _ _ _).mp hread
  rw [List.length_eq_zero_iff] at hgranted
  refine (m.write_eq_ok_iff m address bytes).mpr ⟨hgranted.imp_right (⟨hstart, ·⟩), fun k => ?_⟩
  by_cases hk : address ≤ k ∧ k < address + bytes.length
  · rw [if_pos hk, hbytes (k - address) (by omega), Nat.add_sub_cancel' hk.1]
  · rw [if_neg hk]

end Memory

end Chip8
