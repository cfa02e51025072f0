import Chip8.Proofs.Reachable
import Chip8.Proofs.Truncation

/-!
# `Chip8.Proofs.Range`: the program counter and the open calls stay in range

The program counter is a word of 16 bits and wraps around silently. `Machine.InRange` is an
invariant that rules this out. It bounds the program counter and the open calls together: a
return goes where a call pushed, and a call pushes the address behind an opcode that lies in
memory. The farthest jump is the one that adds a register to an address of twelve bits. It may
lead out of memory, and the step that comes next then fails.

`Steers.inRange` keeps the invariant over one instruction, and the induction over the consoles
that can be reached does the rest. `reachable_inRange` adds what the bounds are good for: where a
step leads is a sum of natural numbers.
-/

set_option autoImplicit false

namespace Chip8

/-- The program counter is at most the end of the farthest jump, and the open calls return to
addresses behind an opcode. -/
structure Machine.InRange (m : Machine) : Prop where
  pc_le : m.pc.toNat ≤ 0x10FE
  calls_mem : ∀ address ∈ m.calls, 2 ≤ address.toNat ∧ address.toNat ≤ 0x1000

namespace Instruction

variable {m m' : Machine} {opcode : Opcode} {instr : Instruction}

/-! ### Where an instruction leads -/

/-- A jump with an offset goes to the sum of the address and the register. -/
theorem toNat_jumpOffset {address : UInt16} (h : decode? opcode = some (.jumpOffset address))
    (value : UInt8) : (address + value.toUInt16).toNat = address.toNat + value.toNat := by
  have haddress := usedAddress_lt_of_decode? h address rfl
  have hvalue := value.toNat_lt
  rw [UInt16.toNat_add, UInt8.toNat_toUInt16]
  omega

/-- An instruction that was fetched and decoded leads at most one opcode behind memory, unless
it jumps with an offset. -/
theorem Steers.pc_le (hsteers : instr.Steers m.advance m') (hm : m.InRange)
    (hfetch : m.fetch = .ok opcode) (hdecode : decode? opcode = some instr)
    (hjump : ∀ address, instr ≠ .jumpOffset address) : m'.pc.toNat ≤ 0x1002 := by
  have hlt := Machine.pc_lt_of_fetch hfetch
  have hnext := Machine.toNat_pc_advance_of_fetch hfetch
  have hused := usedAddress_lt_of_decode? hdecode
  -- The opcode lies in memory, so it is enough to know how far each way leads from behind it.
  cases hsteers with
  | straight _ hpc _ =>
    rw [hpc]
    omega
  | skip hpc _ =>
    rw [hpc]
    split
    · rw [Machine.toNat_pc_advance (by omega)]
      omega
    · omega
  | awaitKey hpc _ =>
    rw [hpc]
    split
    · omega
    · -- Back where it was fetched.
      rw [Machine.rewind_advance]
      omega
  | @jump address hpc _ =>
    have := hused address rfl
    rw [hpc]
    omega
  | @jumpOffset address => exact absurd rfl (hjump address)
  | @call address hpc _ =>
    have := hused address rfl
    rw [hpc]
    omega
  | @ret address calls hopen hpc _ =>
    -- The one way whose bound is not in the opcode but in the invariant.
    have hmem : address ∈ m.calls := by
      rw [show m.calls = address :: calls from hopen]
      exact List.mem_cons_self
    have := hm.calls_mem address hmem
    rw [hpc]
    omega

/-! ### The invariant -/

/-- An instruction that was fetched and decoded keeps the invariant. -/
theorem Steers.inRange (hsteers : instr.Steers m.advance m') (hm : m.InRange)
    (hfetch : m.fetch = .ok opcode) (hdecode : decode? opcode = some instr) : m'.InRange where
  pc_le := by
    by_cases hjump : ∃ address, instr = .jumpOffset address
    · obtain ⟨address, rfl⟩ := hjump
      cases hsteers with
      | straight hstraight => cases hstraight
      | jumpOffset hpc _ =>
        have haddress := usedAddress_lt_of_decode? hdecode address rfl
        have hvalue := (m.advance.registers.get 0).toNat_lt
        rw [hpc, toNat_jumpOffset hdecode]
        omega
    · have := hsteers.pc_le hm hfetch hdecode fun address h => hjump ⟨address, h⟩
      omega
  calls_mem := by
    intro address hmem
    rcases hsteers.calls_cases with hcalls | ⟨_, -, hcalls⟩ | ⟨-, hopen⟩
    · rw [hcalls] at hmem
      exact hm.calls_mem address hmem
    · rw [hcalls] at hmem
      rcases List.mem_cons.mp hmem with rfl | hmem
      · -- What is pushed lies behind an opcode in memory.
        have hlt := Machine.pc_lt_of_fetch hfetch
        have hnext := Machine.toNat_pc_advance_of_fetch hfetch
        omega
      · exact hm.calls_mem address hmem
    · refine hm.calls_mem address ?_
      rw [show m.calls = _ :: m'.calls from hopen]
      exact List.mem_cons_of_mem _ hmem

end Instruction

namespace Console

/-- Every machine that can be reached is in range. -/
theorem Reachable.inRange {c : Console} (h : c.Reachable) : c.machine.InRange := by
  refine h.machine_induction ?_ ?_ ?_
  · intro config program entropy
    refine ⟨?_, fun _ hmem => nomatch hmem⟩
    show 0x200 ≤ 0x10FE
    decide
  · intro m opcode instr hm hfetch hdecode hdone
    exact (Instruction.steers_execute hdone).inRange hm hfetch hdecode
  · intro m delay sound keypad hm
    exact ⟨hm.pc_le, hm.calls_mem⟩

/-! ### No step wraps -/

/-- The step of an instruction that was fetched, decoded and does not fail. -/
theorem steers_of_fetch {c : Console} {opcode : Opcode} {instr : Instruction}
    (hfetch : c.fetch = .ok opcode) (hdecode : Instruction.decode? opcode = some instr)
    (hdone : (instr.execute c.machine.advance).fault = none) :
    instr.Steers c.machine.advance c.step.console.machine := by
  rw [step_of_done hfetch hdecode hdone]
  exact Instruction.steers_execute hdone

/-- The program counter and the open calls of a console that can be reached stay in range, and
no step wraps the program counter around. Moving on adds two, whatever the instruction then does.
A skip adds two more if it holds, a wait without a key takes the two away again, and a jump with
an offset goes to the sum of its address and the register: all of this in natural numbers. A step
that succeeds leaves the program counter two bytes behind memory at most, unless it is such a
jump. -/
theorem reachable_inRange {c : Console} (h : c.Reachable) :
    (c.machine.pc.toNat ≤ 0x10FE ∧
      ∀ address ∈ c.machine.calls, 2 ≤ address.toNat ∧ address.toNat ≤ 0x1000) ∧
    (∀ opcode instr, c.fetch = .ok opcode → Instruction.decode? opcode = some instr →
      let next := c.machine.advance
      let pc := c.step.console.machine.pc
      next.pc.toNat = c.machine.pc.toNat + 2 ∧
      (∀ condition, instr = .skip condition →
        pc.toNat = next.pc.toNat + if condition.holds next then 2 else 0) ∧
      (∀ x, instr = .awaitKey x →
        pc.toNat + (if c.machine.keypad.firstPressed?.isSome then 0 else 2) = next.pc.toNat) ∧
      ∀ address, instr = .jumpOffset address →
        pc.toNat = address.toNat + (c.machine.registers.get 0).toNat) ∧
    ∀ instr, c.step.result = .ok instr → (∀ address, instr ≠ .jumpOffset address) →
      c.step.console.machine.pc.toNat ≤ 0x1002 := by
  have hm := h.inRange
  refine ⟨⟨hm.pc_le, hm.calls_mem⟩, ?_, ?_⟩
  · intro opcode instr hfetch hdecode
    have hlt := Machine.pc_lt_of_fetch hfetch
    have hnext := Machine.toNat_pc_advance_of_fetch hfetch
    dsimp only
    refine ⟨hnext, ?_, ?_, ?_⟩
    · rintro condition rfl
      cases steers_of_fetch hfetch hdecode rfl with
      | straight hstraight => cases hstraight
      | skip hpc _ =>
        rw [hpc]
        split
        · exact Machine.toNat_pc_advance (by omega)
        · rfl
    · rintro x rfl
      have hdone : ((Instruction.awaitKey x).execute c.machine.advance).fault = none := by
        simp only [Instruction.execute]
        split <;> rfl
      cases steers_of_fetch hfetch hdecode hdone with
      | straight hstraight => cases hstraight
      | awaitKey hpc _ =>
        -- The wait looks at the keys of the machine that was moved on, which are the same.
        replace hpc : c.step.console.machine.pc =
          if c.machine.keypad.firstPressed?.isSome then c.machine.advance.pc
          else c.machine.advance.rewind.pc := hpc
        rw [hpc]
        split
        · rfl
        · rw [Machine.rewind_advance]
          exact hnext.symm
    · rintro address rfl
      cases steers_of_fetch hfetch hdecode rfl with
      | straight hstraight => cases hstraight
      | jumpOffset hpc _ =>
        rw [hpc]
        exact Instruction.toNat_jumpOffset hdecode _
  · intro instr hok hjump
    obtain ⟨opcode, hfetch, hdecode, -⟩ := step_of_ok hok
    exact (steers_step hok).pc_le hm hfetch hdecode hjump

/-- A console in a subroutine, about to jump as far as there is a jump. -/
def beforeFarJump : Console :=
  (createWith {} [0x22, 0x02, 0x60, 0xFF, 0xBF, 0xFF]).console.after [.step, .step]

/-- The jump leads to the highest address that the program counter can have. The step that comes
next fails there, and the console stays in range. -/
theorem reachable_inRange_beforeFarJump :
    beforeFarJump.Reachable ∧
    (beforeFarJump.machine.calls = [0x202] ∧
      ∀ address ∈ beforeFarJump.machine.calls, 2 ≤ address.toNat ∧ address.toNat ≤ 0x1000) ∧
    (beforeFarJump.fetch = .ok 0xBFFF ∧
      beforeFarJump.step.console.machine.pc.toNat = 0xFFF + 0xFF) ∧
    (beforeFarJump.step.console.step.result = .error (.outOfBounds 0x10FE) ∧
      beforeFarJump.step.console.machine.pc.toNat ≤ 0x10FE) := by
  have hcreated : (createWith {} [0x22, 0x02, 0x60, 0xFF, 0xBF, 0xFF]).result = .ok () := rfl
  have hreach : beforeFarJump.Reachable := (Reachable.createWith hcreated).after _
  have hrun : beforeFarJump.machine.calls = [0x202] ∧ beforeFarJump.fetch = .ok 0xBFFF ∧
      beforeFarJump.machine.registers.get 0 = 0xFF ∧
      beforeFarJump.step.console.step.result = .error (.outOfBounds 0x10FE) := by
    decide +kernel
  obtain ⟨hcalls, hfetch, hvalue, hfails⟩ := hrun
  obtain ⟨⟨-, hmem⟩, hsums, -⟩ := reachable_inRange hreach
  obtain ⟨-, -, -, hjump⟩ := hsums 0xBFFF (.jumpOffset 0xFFF) hfetch rfl
  have hpc := hjump 0xFFF rfl
  rw [hvalue] at hpc
  obtain ⟨⟨hle, -⟩, -⟩ := reachable_inRange hreach.step
  exact ⟨hreach, ⟨hcalls, hmem⟩, ⟨hfetch, hpc⟩, hfails, hle⟩

end Console

end Chip8
