import Chip8.Proofs.Encoding
import Chip8.Proofs.Failure
import Chip8.Proofs.Step

/-!
# `Chip8.Proofs.StepResult`: the result of a step, read off the opcode

`Opcode.bytesRead` and `Opcode.bytesWritten` take from an opcode how many bytes it asks to read
and to write, before it is decoded, and `Instruction.bytes_opcode` says that these are the
numbers of the instruction that it stands for. So the faults of an instruction
(`Instruction.FailsWith`) turn into conditions on the opcode, the index and the open calls, one
for each fault (`result_step_eq_…_iff`). `step_result_iff` puts them together.

`result_step_congr` is what histories need: a console that agrees in memory, program counter,
index and open calls with one whose step fails has a step that fails in the same way.
-/

set_option autoImplicit false

namespace Chip8

/-! ### Opcodes -/

namespace Opcode

/-- How many bytes of memory an opcode asks to read: the height of a sprite, or the registers
up to `x`. -/
def bytesRead (w : Opcode) : Nat :=
  if w.family = 0xD then w.nibble.toNat
  else if w.family = 0xF ∧ w.byte = 0x65 then w.x.toNat + 1
  else 0

/-- How many bytes of memory an opcode asks to write: three digits, or the registers up
to `x`. -/
def bytesWritten (w : Opcode) : Nat :=
  if w.family = 0xF ∧ w.byte = 0x33 then 3
  else if w.family = 0xF ∧ w.byte = 0x55 then w.x.toNat + 1
  else 0

/-- With the index at `i`, the opcode reaches past the end of memory. A write has to start
behind the reserved part for this. -/
def Overruns (w : Opcode) (i : Nat) : Prop :=
  (0 < w.bytesRead ∧ 0x1000 < i + w.bytesRead) ∨
  (0 < w.bytesWritten ∧ 0x200 ≤ i ∧ 0x1000 < i + w.bytesWritten)

/-- An opcode outside of the two families that access memory reads and writes no byte. -/
theorem bytes_of_family {w : Opcode} (hsprite : w.family ≠ 0xD) (hdevice : w.family ≠ 0xF) :
    w.bytesRead = 0 ∧ w.bytesWritten = 0 := by
  simp only [bytesRead, bytesWritten, hsprite, hdevice, false_and, if_false, and_self]

/-- What an opcode of the last family reads and writes is decided by its byte. -/
theorem bytes_ofByte_device (x code : UInt8) :
    (ofByte 0xF x code).bytesRead = (if code = 0x65 then x.toNat % 0x10 + 1 else 0) ∧
    (ofByte 0xF x code).bytesWritten
      = (if code = 0x33 then 3 else if code = 0x55 then x.toNat % 0x10 + 1 else 0) := by
  have hx : (ofByte 0xF x code).x.toNat = x.toNat % 0x10 := by
    rw [x_ofByte (by decide), UInt8.toNat_mod]
    rfl
  simp only [bytesRead, bytesWritten, family_ofByte (show 0xF < 16 by decide),
    byte_ofByte (show 0xF < 16 by decide), hx, true_and, Nat.reduceEqDiff, if_false, and_self]

end Opcode

namespace Instruction

open Opcode

/-- The opcode of an instruction asks for the bytes that the instruction reads and writes. -/
theorem bytes_opcode (instr : Instruction) :
    instr.opcode.bytesRead = instr.bytesRead ∧ instr.opcode.bytesWritten = instr.bytesWritten := by
  cases instr with
  | clearScreen | ret => exact ⟨rfl, rfl⟩
  | system | jump | call | setIndex | jumpOffset =>
    apply bytes_of_family <;> rw [opcode, family_ofAddress (by decide)] <;> decide
  | load | addByte | random =>
    apply bytes_of_family <;> rw [opcode, family_ofByte (by decide)] <;> decide
  | skip condition =>
    cases condition with
    | byteEq | byteNe | keyDown | keyUp =>
      apply bytes_of_family <;> rw [opcode, family_ofByte (by decide)] <;> decide
    | registerEq | registerNe =>
      apply bytes_of_family <;> rw [opcode, family_ofNibbles (by decide)] <;> decide
  | alu =>
    apply bytes_of_family <;> rw [opcode, family_ofNibbles (by decide)] <;> decide
  | draw x y height =>
    have hheight : (ofNibbles 0xD x y height).nibble.toNat = height.toNat % 0x10 := by
      rw [nibble_ofNibbles (by decide), UInt8.toNat_mod]
      rfl
    simp only [opcode, Opcode.bytesRead, Opcode.bytesWritten,
      family_ofNibbles (show 0xD < 16 by decide), hheight]
    exact ⟨rfl, rfl⟩
  | _ => exact bytes_ofByte_device _ _

/-- The one opcode that returns. -/
theorem eq_ret_iff_of_decode? {w : Opcode} {instr : Instruction} (h : decode? w = some instr) :
    instr = .ret ↔ w = 0x00EE := by
  constructor
  · rintro rfl
    exact (opcode_of_decode? h).symm
  · rintro rfl
    exact (Option.some.inj h).symm

end Instruction

/-! ### Steps -/

/-- An opcode cannot be read where one of its two bytes is past the end of memory. -/
theorem Memory.readOpcode_eq_error_iff (m : Memory) (address : Nat) (fault : Fault) :
    m.readOpcode address = .error fault ↔ 0xFFF ≤ address ∧ fault = pastEnd address := by
  unfold readOpcode
  constructor
  · intro h
    split at h
    · exact nomatch h
    · cases h
      exact ⟨by omega, rfl⟩
  · rintro ⟨hend, rfl⟩
    rw [dif_neg (by omega)]

/-- Going back undoes going on, even where the address wraps. -/
theorem Machine.rewind_advance (m : Machine) : m.advance.rewind = m := by
  show { m with pc := m.pc + _ - _ } = m
  rw [UInt16.add_sub_cancel]

namespace Console

variable {c : Console} {opcode : Opcode} {instr : Instruction}

/-- The step of an instruction that was fetched and decoded fails as the instruction does. -/
theorem result_step_eq_error_iff (hfetch : c.fetch = .ok opcode)
    (hdecode : Instruction.decode? opcode = some instr) (fault : Fault) :
    c.step.result = .error fault ↔ instr.FailsWith c.machine.advance fault := by
  rw [← Instruction.fault_execute_iff]
  cases hfault : (instr.execute c.machine.advance).fault with
  | none =>
    rw [step_of_done hfetch hdecode hfault]
    simp only [executed, reduceCtorEq]
  | some fault' =>
    rw [step_of_fault hfetch hdecode hfault]
    simp only [Except.error.injEq, Option.some.injEq]

/-- It succeeds with the instruction if the instruction does not fail. -/
theorem result_step_eq_ok_iff (hfetch : c.fetch = .ok opcode)
    (hdecode : Instruction.decode? opcode = some instr) (instr' : Instruction) :
    c.step.result = .ok instr' ↔
      (∀ fault, ¬ instr.FailsWith c.machine.advance fault) ∧ instr' = instr := by
  simp only [← Instruction.fault_execute_iff]
  cases hfault : (instr.execute c.machine.advance).fault with
  | none =>
    rw [step_of_done hfetch hdecode hfault]
    simp only [executed, Except.ok.injEq, reduceCtorEq, not_false_eq_true, implies_true, true_and,
      eq_comm]
  | some fault' =>
    rw [step_of_fault hfetch hdecode hfault]
    simp only [reduceCtorEq, Option.some.injEq, false_iff, not_and]
    exact fun h => absurd rfl (h fault')

/-- A console that agrees in memory, program counter, index and open calls with one whose step
fails has a step that fails in the same way. -/
theorem result_step_congr {d : Console} {fault : Fault} (h : c.step.result = .error fault)
    (hmemory : d.machine.memory = c.machine.memory) (hpc : d.machine.pc = c.machine.pc)
    (hindex : d.machine.index = c.machine.index) (hcalls : d.machine.calls = c.machine.calls) :
    d.step.result = .error fault := by
  have hfetch : d.fetch = c.fetch := by simp only [fetch, Machine.fetch, hmemory, hpc]
  rcases c.step_cases with
    ⟨fault', hc, hs⟩ | ⟨opcode, hc, hdecode, hs⟩ |
    ⟨opcode, instr, fault', hc, hdecode, hfault, hs⟩ | ⟨opcode, instr, _, _, _, hs⟩
  all_goals rw [hs] at h; cases h
  · rw [step_of_fetch_error (hfetch.trans hc)]
  · rw [step_of_decode_none (hfetch.trans hc) hdecode, hpc]
  · have hadvance : d.machine.advance.pc = c.machine.advance.pc := by
      simp only [Machine.advance, hpc]
    rw [result_step_eq_error_iff (hfetch.trans hc) hdecode]
    exact (Instruction.fault_execute_iff.mp hfault).congr hindex hadvance hcalls

/-- A fetch fails exactly where one of the two bytes is past the end of memory, and it names the
first one that is. -/
theorem fetch_eq_error_iff (fault : Fault) :
    c.fetch = .error fault ↔ 0xFFF ≤ c.machine.pc.toNat ∧
      fault = .outOfBounds (max c.machine.pc.toNat 0x1000) :=
  c.machine.memory.readOpcode_eq_error_iff _ fault

/-- A fetch from inside of memory yields the two bytes at the program counter. -/
theorem fetch_of_lt (hpc : c.machine.pc.toNat < 0xFFF) :
    c.fetch = .ok (.ofBytes c.machine.memory.bytes[c.machine.pc.toNat]
      c.machine.memory.bytes[c.machine.pc.toNat + 1]) := by
  show c.machine.memory.readOpcode c.machine.pc.toNat = _
  rw [Memory.readOpcode, dif_pos (by omega)]

/-- A step fails with one of four faults. -/
theorem kind_of_result_step {fault : Fault} (h : c.step.result = .error fault) :
    (∃ word address, fault = .unknownOpcode word address) ∨
      (∃ address, fault = .stackUnderflow address) ∨ (∃ address, fault = .outOfBounds address) ∨
      (∃ address, fault = .reservedWrite address) := by
  rcases c.step_cases with
    ⟨fault', hfetch, hs⟩ | ⟨opcode, _, _, hs⟩ | ⟨opcode, instr, fault', _, _, hfault, hs⟩ |
    ⟨opcode, instr, _, _, _, hs⟩
  all_goals rw [hs] at h; cases h
  · exact .inr (.inr (.inl ⟨_, ((fetch_eq_error_iff _).mp hfetch).2⟩))
  · exact .inl ⟨_, _, rfl⟩
  · exact .inr (Instruction.fault_execute_iff.mp hfault).kind

/-- A step reports an unknown opcode exactly when what it fetched stands for no instruction. -/
theorem result_step_eq_unknownOpcode_iff (hfetch : c.fetch = .ok opcode) (word : Opcode)
    (address : UInt16) :
    c.step.result = .error (.unknownOpcode word address) ↔
      Instruction.decode? opcode = none ∧ word = opcode ∧ address = c.machine.pc := by
  cases hdecode : Instruction.decode? opcode with
  | none =>
    rw [step_of_decode_none hfetch hdecode]
    simp only [Except.error.injEq, Fault.unknownOpcode.injEq, true_and, eq_comm]
  | some instr =>
    -- An instruction that was decoded has other faults.
    rw [result_step_eq_error_iff hfetch hdecode]
    refine iff_of_false (fun h => ?_) (fun h => nomatch h.1)
    rcases h.kind with ⟨_, h⟩ | ⟨_, h⟩ | ⟨_, h⟩ <;> exact nomatch h

section Decoded

variable (hfetch : c.fetch = .ok opcode) (hdecode : Instruction.decode? opcode = some instr)
include hfetch hdecode

/-- A step reports a stack underflow exactly at a return with no call open. -/
theorem result_step_eq_stackUnderflow_iff (address : UInt16) :
    c.step.result = .error (.stackUnderflow address) ↔
      (opcode = 0x00EE ∧ c.machine.calls = []) ∧ address = c.machine.pc := by
  rw [result_step_eq_error_iff hfetch hdecode, Instruction.failsWith_stackUnderflow_iff,
    Instruction.eq_ret_iff_of_decode? hdecode, Machine.rewind_advance]
  rfl

/-- A step reports an access out of bounds exactly when its opcode overruns memory. -/
theorem result_step_eq_outOfBounds_iff (address : Nat) :
    c.step.result = .error (.outOfBounds address) ↔
      opcode.Overruns c.machine.index.toNat ∧ address = max c.machine.index.toNat 0x1000 := by
  obtain ⟨hread, hwrite⟩ := instr.bytes_opcode
  rw [result_step_eq_error_iff hfetch hdecode, Instruction.failsWith_outOfBounds_iff, ← hread,
    ← hwrite, Instruction.opcode_of_decode? hdecode]
  rfl

/-- A step reports a reserved write exactly when its opcode writes from below programs on. -/
theorem result_step_eq_reservedWrite_iff (address : Nat) :
    c.step.result = .error (.reservedWrite address) ↔
      (0 < opcode.bytesWritten ∧ c.machine.index.toNat < 0x200) ∧
      address = c.machine.index.toNat := by
  rw [result_step_eq_error_iff hfetch hdecode, Instruction.failsWith_reservedWrite_iff,
    ← instr.bytes_opcode.2, Instruction.opcode_of_decode? hdecode]
  rfl

/-- An opcode that was decoded is executed where none of its three faults applies. -/
theorem result_step_eq_ok_iff_of_decode? (instr' : Instruction) :
    c.step.result = .ok instr' ↔
      (¬ (opcode = 0x00EE ∧ c.machine.calls = []) ∧
        ¬ opcode.Overruns c.machine.index.toNat ∧
        ¬ (0 < opcode.bytesWritten ∧ c.machine.index.toNat < 0x200)) ∧ instr' = instr := by
  have hunderflow := result_step_eq_stackUnderflow_iff hfetch hdecode
  have hbounds := result_step_eq_outOfBounds_iff hfetch hdecode
  have hreserved := result_step_eq_reservedWrite_iff hfetch hdecode
  constructor
  · intro hok
    obtain ⟨-, hinstr⟩ := (result_step_eq_ok_iff hfetch hdecode instr').mp hok
    refine ⟨⟨?_, ?_, ?_⟩, hinstr⟩
    · intro h
      exact nomatch hok.symm.trans ((hunderflow _).mpr ⟨h, rfl⟩)
    · intro h
      exact nomatch hok.symm.trans ((hbounds _).mpr ⟨h, rfl⟩)
    · intro h
      exact nomatch hok.symm.trans ((hreserved _).mpr ⟨h, rfl⟩)
  · rintro ⟨⟨hcall, hend, hlow⟩, rfl⟩
    refine (result_step_eq_ok_iff hfetch hdecode _).mpr ⟨fun fault hfails => ?_, rfl⟩
    have hresult := (result_step_eq_error_iff hfetch hdecode fault).mpr hfails
    rcases hfails.kind with ⟨address, rfl⟩ | ⟨address, rfl⟩ | ⟨address, rfl⟩
    · exact hcall ((hunderflow address).mp hresult).1
    · exact hend ((hbounds address).mp hresult).1
    · exact hlow ((hreserved address).mp hresult).1

end Decoded

/-- The result of a step, read off the program counter, the opcode `w` that it points at, the
index `i` and the open calls. Where the program counter has no two bytes to point at, the fetch
fails, and the step with it. Otherwise an opcode that stands for no instruction is named with
its address, the opcode of the return fails without an open call, an opcode that reads or writes
fails where it does not find all of its bytes or would write below `0x200`, and every other
opcode is executed. A step fails in no other way. -/
theorem step_result_iff (c : Console) :
    let m := c.machine
    let result := c.step.result
    let noOpcode := Fault.outOfBounds (max m.pc.toNat 0x1000)
    (c.fetch = .error noOpcode ∧ result = .error noOpcode ↔ 0xFFF ≤ m.pc.toNat) ∧
    (∀ hpc : m.pc.toNat < 0xFFF,
      let w := Opcode.ofBytes m.memory.bytes[m.pc.toNat] m.memory.bytes[m.pc.toNat + 1]
      let i := m.index.toNat
      (∀ word address, result = .error (.unknownOpcode word address) ↔
        Instruction.decode? w = none ∧ word = w ∧ address = m.pc) ∧
      ∀ instr, Instruction.decode? w = some instr →
        (∀ address, result = .error (.stackUnderflow address) ↔
          (w = 0x00EE ∧ m.calls = []) ∧ address = m.pc) ∧
        (∀ address, result = .error (.outOfBounds address) ↔
          w.Overruns i ∧ address = max i 0x1000) ∧
        (∀ address, result = .error (.reservedWrite address) ↔
          (0 < w.bytesWritten ∧ i < 0x200) ∧ address = i) ∧
        (∀ instr', result = .ok instr' ↔
          (¬ (w = 0x00EE ∧ m.calls = []) ∧ ¬ w.Overruns i ∧ ¬ (0 < w.bytesWritten ∧ i < 0x200)) ∧
          instr' = instr)) ∧
    (∀ size limit, result ≠ .error (.programTooLarge size limit)) ∧
    (∀ key, result ≠ .error (.invalidKey key)) ∧
    (∀ reason, result ≠ .error (.unreadable reason)) := by
  intro m result noOpcode
  refine ⟨?_, ?_, ?_⟩
  · constructor
    · rintro ⟨hfetch, -⟩
      exact ((fetch_eq_error_iff _).mp hfetch).1
    · intro hpc
      have hfetch : c.fetch = .error noOpcode := (fetch_eq_error_iff _).mpr ⟨hpc, rfl⟩
      refine ⟨hfetch, ?_⟩
      show c.step.result = .error noOpcode
      rw [step_of_fetch_error hfetch]
  · intro hpc w i
    have hfetch : c.fetch = .ok w := fetch_of_lt hpc
    refine ⟨result_step_eq_unknownOpcode_iff hfetch, ?_⟩
    intro instr hdecode
    exact ⟨result_step_eq_stackUnderflow_iff hfetch hdecode,
      result_step_eq_outOfBounds_iff hfetch hdecode,
      result_step_eq_reservedWrite_iff hfetch hdecode,
      result_step_eq_ok_iff_of_decode? hfetch hdecode⟩
  · refine ⟨fun _ _ h => ?_, fun _ h => ?_, fun _ h => ?_⟩
    all_goals
      rcases kind_of_result_step h with ⟨_, _, h⟩ | ⟨_, h⟩ | ⟨_, h⟩ | ⟨_, h⟩ <;> exact nomatch h

/-- A console with the index far behind memory, about to draw a sprite of no row and then one of
one row. -/
def behindMemory : Console :=
  { ofConfig {} .zero with
    machine := { Machine.fresh {} with
      index := 0xFFFF, memory := Memory.zero.store 0x200 [0xD0, 0x10, 0xD0, 0x11] } }

/-- The sprite of no row is drawn, and the sprite of one row is not found. -/
theorem step_result_iff_behindMemory :
    let c := behindMemory
    let d := behindMemory.step.console
    (c.machine.pc.toNat < 0xFFF ∧ Instruction.decode? 0xD010 = some (.draw 0 1 0) ∧
      c.step.result = .ok (.draw 0 1 0)) ∧
    (d.machine.pc.toNat < 0xFFF ∧ Instruction.decode? 0xD011 = some (.draw 0 1 1) ∧
      d.step.result = .error (.outOfBounds 0xFFFF)) := by
  intro c d
  have hc : c.machine.pc.toNat < 0xFFF := by decide
  have hd : d.machine.pc.toNat < 0xFFF := by decide +kernel
  have hcfetch : c.fetch = .ok 0xD010 := by decide +kernel
  have hdfetch : d.fetch = .ok 0xD011 := by decide +kernel
  obtain ⟨-, hcstep, -⟩ := step_result_iff c
  obtain ⟨-, hdstep, -⟩ := step_result_iff d
  replace hcstep := (hcstep hc).2
  replace hdstep := (hdstep hd).2
  rw [Except.ok.inj ((fetch_of_lt hc).symm.trans hcfetch)] at hcstep
  rw [Except.ok.inj ((fetch_of_lt hd).symm.trans hdfetch)] at hdstep
  obtain ⟨-, -, -, hok⟩ := hcstep (.draw 0 1 0) rfl
  obtain ⟨-, hbounds, -⟩ := hdstep (.draw 0 1 1) rfl
  have hfits : ¬ Opcode.Overruns 0xD010 c.machine.index.toNat := by
    rintro (⟨h, -⟩ | ⟨h, -⟩) <;> exact absurd h (by decide)
  have hoverruns : Opcode.Overruns 0xD011 d.machine.index.toNat := .inl (by decide +kernel)
  refine ⟨⟨hc, rfl, (hok _).mpr ⟨⟨?_, hfits, ?_⟩, rfl⟩⟩, hd, rfl,
    (hbounds _).mpr ⟨hoverruns, by decide +kernel⟩⟩
  · exact fun h => absurd h.1 (by decide)
  · exact fun h => absurd h.1 (by decide)

end Console

end Chip8
