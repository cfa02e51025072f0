import Chip8.Proofs.Step

/-!
# `Chip8.Proofs.Steering`: where an instruction leads

Seven kinds of instructions differ in what they do to the program counter and to the open calls.
`Instruction.Steers` lists them, each with the condition on which it acts: whether a skip
holds, whether a key is down, and which call is open. `steers_execute` says that an instruction
that succeeds acts as listed, and `Console.step_of_ok` brings this to steps. What a run does to
the program counter and to the open calls is read off the list, and no proof about either unfolds
`Instruction.execute` again.
-/

set_option autoImplicit false

namespace Chip8

/-! ### Moving on -/

namespace Machine

/-- An opcode that is fetched takes two addresses of memory. -/
theorem pc_lt_of_fetch {m : Machine} {opcode : Opcode} (h : m.fetch = .ok opcode) :
    m.pc.toNat < 0xFFF := by
  unfold fetch Memory.readOpcode at h
  split at h
  · omega
  · exact nomatch h

/-- Going on does not wrap below the last two addresses. -/
theorem toNat_pc_advance {m : Machine} (h : m.pc.toNat < 0xFFFE) :
    m.advance.pc.toNat = m.pc.toNat + 2 := by
  show (m.pc + UInt16.ofNat Opcode.size).toNat = m.pc.toNat + 2
  rw [UInt16.toNat_add]
  show (m.pc.toNat + 2) % 0x10000 = m.pc.toNat + 2
  omega

/-- The address behind an opcode that is fetched does not wrap. -/
theorem toNat_pc_advance_of_fetch {m : Machine} {opcode : Opcode} (h : m.fetch = .ok opcode) :
    m.advance.pc.toNat = m.pc.toNat + 2 := by
  have hlt := pc_lt_of_fetch h
  exact toNat_pc_advance (by omega)

end Machine

/-! ### Program counter and open calls -/

namespace Instruction

/-- The instruction takes a machine `m` to the program counter and the open calls of `m'`. -/
inductive Steers (m m' : Machine) : Instruction → Prop
  | straight {instr : Instruction} (hstraight : instr.isStraight = true) (hpc : m'.pc = m.pc)
      (hcalls : m'.calls = m.calls) : Steers m m' instr
  | skip {condition : Condition}
      (hpc : m'.pc = if condition.holds m then m.advance.pc else m.pc)
      (hcalls : m'.calls = m.calls) : Steers m m' (.skip condition)
  /-- Without a key that is down, the instruction is to be executed again. -/
  | awaitKey {x : UInt8}
      (hpc : m'.pc = if m.keypad.firstPressed?.isSome then m.pc else m.rewind.pc)
      (hcalls : m'.calls = m.calls) : Steers m m' (.awaitKey x)
  | jump {address : UInt16} (hpc : m'.pc = address) (hcalls : m'.calls = m.calls) :
      Steers m m' (.jump address)
  | jumpOffset {address : UInt16} (hpc : m'.pc = address + (m.registers.get 0).toUInt16)
      (hcalls : m'.calls = m.calls) : Steers m m' (.jumpOffset address)
  | call {address : UInt16} (hpc : m'.pc = address) (hcalls : m'.calls = m.pc :: m.calls) :
      Steers m m' (.call address)
  | ret {address : UInt16} {calls : List UInt16} (hopen : m.calls = address :: calls)
      (hpc : m'.pc = address) (hcalls : m'.calls = calls) : Steers m m' .ret

/-- An instruction leaves the open calls, opens one that returns behind it, or returns from the
latest. -/
theorem Steers.calls_cases {m m' : Machine} {instr : Instruction} (h : instr.Steers m m') :
    m'.calls = m.calls ∨ (∃ address, instr = .call address ∧ m'.calls = m.pc :: m.calls) ∨
      (instr = .ret ∧ m.calls = m'.pc :: m'.calls) := by
  cases h with
  | straight _ _ hcalls => exact .inl hcalls
  | skip _ hcalls => exact .inl hcalls
  | awaitKey _ hcalls => exact .inl hcalls
  | jump _ hcalls => exact .inl hcalls
  | jumpOffset _ hcalls => exact .inl hcalls
  | call _ hcalls => exact .inr (.inl ⟨_, rfl, hcalls⟩)
  | ret hopen hpc hcalls =>
    refine .inr (.inr ⟨rfl, ?_⟩)
    rw [hpc, hcalls]
    exact hopen

/-- A straight instruction leaves the open calls alone. -/
theorem calls_execute {instr : Instruction} (h : instr.isStraight = true) (m : Machine) :
    (instr.execute m).machine.calls = m.calls := by
  have hkept : .calls ∉ instr.changes := by
    cases instr <;> simp_all [isStraight, changes]
  exact same_execute hkept m

/-- An instruction that succeeds steers as listed. -/
theorem steers_execute {instr : Instruction} {m : Machine}
    (hdone : (instr.execute m).fault = none) : instr.Steers m (instr.execute m).machine := by
  cases hstraight : instr.isStraight with
  | true => exact .straight hstraight (pc_execute hstraight m) (calls_execute hstraight m)
  | false =>
    cases instr with
    | skip condition =>
      refine .skip ?_ ?_
      · show (if condition.holds m then m.advance else m).pc = _
        split <;> rfl
      · show (if condition.holds m then m.advance else m).calls = _
        split <;> rfl
    | awaitKey x =>
      refine .awaitKey ?_ ?_
      · simp only [execute]
        split <;> simp_all [Outcome.done, Machine.setRegister]
      · simp only [execute]
        split <;> rfl
    | jump address => exact .jump rfl rfl
    | jumpOffset address => exact .jumpOffset rfl rfl
    | call address => exact .call rfl rfl
    | ret =>
      -- The return succeeds, so a call is open.
      replace hdone : m.returnFromCall.fault = none := hdone
      cases hopen : m.calls with
      | nil => simp [Machine.returnFromCall, hopen] at hdone
      | cons address calls =>
        refine .ret hopen ?_ ?_
        · simp [execute, Machine.returnFromCall, hopen, Outcome.done]
        · simp [execute, Machine.returnFromCall, hopen, Outcome.done]
    | _ => cases hstraight

end Instruction

namespace Console

/-- A step that succeeds executes the instruction that it answers with. -/
theorem step_of_ok {c : Console} {instr : Instruction} (h : c.step.result = .ok instr) :
    ∃ opcode, c.fetch = .ok opcode ∧ Instruction.decode? opcode = some instr ∧
      (instr.execute c.machine.advance).fault = none ∧ c.step = c.executed opcode instr := by
  rcases c.step_cases with ⟨_, _, hs⟩ | ⟨_, _, _, hs⟩ | ⟨_, _, _, _, _, _, hs⟩ |
    ⟨opcode, instr', hfetch, hdecode, hdone, hs⟩
  -- The first three endings are failures.
  · rw [hs] at h
    exact nomatch h
  · rw [hs] at h
    exact nomatch h
  · rw [hs] at h
    exact nomatch h
  · rw [hs] at h
    cases h
    exact ⟨opcode, hfetch, hdecode, hdone, hs⟩

/-- It changes the machine as the instruction does, and may ask for a redraw. -/
theorem console_step_of_ok {c : Console} {instr : Instruction} (h : c.step.result = .ok instr) :
    c.step.console = { c with
      machine := (instr.execute c.machine.advance).machine
      redraw := c.redraw || instr.touchesScreen } := by
  obtain ⟨opcode, -, -, -, hs⟩ := step_of_ok h
  rw [hs]
  rfl

/-- A step that succeeds steers as its instruction does, from the machine that was moved on. -/
theorem steers_step {c : Console} {instr : Instruction} (h : c.step.result = .ok instr) :
    instr.Steers c.machine.advance c.step.console.machine := by
  obtain ⟨opcode, -, -, hdone, hs⟩ := step_of_ok h
  rw [hs]
  exact Instruction.steers_execute hdone

end Console

end Chip8
