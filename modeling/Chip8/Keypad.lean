import Chip8.Fault

/-!
# `Chip8.Keypad`: the sixteen keys

The host presses and releases keys, and the program asks for them. A key number past
the pad is refused when it is pressed or released, and is never down.
-/

set_option autoImplicit false

namespace Chip8

/-- Which keys are down. -/
@[ext]
structure Keypad where
  down : Vector Bool 16
  deriving DecidableEq

namespace Keypad

/-- How many keys there are. -/
def count : Nat := 16

/-- No key is down. -/
def released : Keypad := ⟨Vector.replicate 16 false⟩

/-- Whether key `k` is down. -/
def isDown (pad : Keypad) (k : UInt8) : Bool := pad.down[k.toNat]?.getD false

/-- Puts key `k` down or up. -/
def put (pad : Keypad) (k : UInt8) (isDown : Bool) : Except Fault Keypad :=
  if h : k.toNat < 16 then .ok ⟨pad.down.set k.toNat isDown h⟩ else .error (.invalidKey k)

/-- Presses key `k`. A key that is down stays down. -/
def press (pad : Keypad) (k : UInt8) : Except Fault Keypad := pad.put k true

/-- Releases key `k`. -/
def release (pad : Keypad) (k : UInt8) : Except Fault Keypad := pad.put k false

/-- The numbers of the keys, from the lowest. -/
def keys : List UInt8 := (List.range 16).map UInt8.ofNat

/-- The keys that are down, from the lowest. -/
def pressed (pad : Keypad) : List UInt8 := keys.filter pad.isDown

/-- The lowest key that is down. -/
def firstPressed? (pad : Keypad) : Option UInt8 := keys.find? pad.isDown

/-- What is put on a key shows on that key, and the other keys stay. -/
theorem isDown_put {pad pad' : Keypad} {k : UInt8} {b : Bool} (h : pad.put k b = .ok pad')
    (j : UInt8) : pad'.isDown j = if j = k then b else pad.isDown j := by
  unfold put at h
  split at h
  · rename_i hk
    injection h with h
    subst h
    simp only [isDown, Vector.getElem?_set, UInt8.toNat_inj, eq_comm (a := k)]
    split <;> simp_all
  · simp at h

/-! ### The lowest key -/

/-- The host's keys are the numbers below sixteen. -/
theorem mem_keys {k : UInt8} : k ∈ keys ↔ k.toNat < 16 := by
  rw [keys, List.mem_map]
  constructor
  · rintro ⟨n, hn, rfl⟩
    have hlt := List.mem_range.mp hn
    simp only [UInt8.toNat_ofNat']
    omega
  · intro hlt
    exact ⟨k.toNat, List.mem_range.mpr hlt, UInt8.ofNat_toNat⟩

/-- A key that is down is on the pad. -/
theorem toNat_lt_of_isDown {pad : Keypad} {k : UInt8} (h : pad.isDown k = true) :
    k.toNat < 16 := by
  apply Nat.lt_of_not_le
  intro hle
  rw [isDown, Vector.getElem?_eq_none hle] at h
  exact nomatch h

/-- There is no lowest key exactly when no key is down. -/
theorem firstPressed?_eq_none_iff (pad : Keypad) :
    pad.firstPressed? = none ↔ ∀ k, pad.isDown k = false := by
  rw [firstPressed?, List.find?_eq_none]
  constructor
  · intro h k
    cases hk : pad.isDown k with
    | false => rfl
    | true => exact absurd hk (h k (mem_keys.mpr (toNat_lt_of_isDown hk)))
  · intro h k _
    simp [h k]

/-- The key that is found is down, and no key below it is. -/
theorem isDown_of_firstPressed? {pad : Keypad} {k : UInt8} (h : pad.firstPressed? = some k) :
    pad.isDown k = true ∧ ∀ j, pad.isDown j = true → k ≤ j := by
  have hsorted : keys.Pairwise (· ≤ ·) := by decide
  obtain ⟨hk, before, behind, hkeys, hup⟩ := List.find?_eq_some_iff_append.mp h
  refine ⟨hk, fun j hj => ?_⟩
  have hmem : j ∈ keys := mem_keys.mpr (toNat_lt_of_isDown hj)
  rw [hkeys, List.mem_append, List.mem_cons] at hmem
  rw [hkeys, List.pairwise_append, List.pairwise_cons] at hsorted
  rcases hmem with hbefore | rfl | hbehind
  · -- The search has passed this key, so it is up.
    exact absurd hj (by simpa using hup j hbefore)
  · exact UInt8.le_refl j
  · exact hsorted.2.1.1 j hbehind

end Keypad

end Chip8
