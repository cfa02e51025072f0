import Chip8.Proofs.Blit
import Chip8.Proofs.Footprint

/-!
# `Chip8.Proofs.GuardedMachine`: the machine with guards

The operations of the machine, written once more on the guarded ones of `Chip8.Proofs.Guards`.
Registers, memory and the screen are arrays here that an operation has to index and slice, an
operand is cut to the index of a register, and the fields of an opcode are shifted into place. A
register or an address that is to wrap around has nothing to guard, and a division is always by a
constant.

Two kinds of accesses are refused with a fault before they reach an array, and it is these checks
that keep the slices of memory in bounds (`read_eq`, `write_eq`). One access is not checked: an
empty write is granted wherever it is, and then it takes an empty slice there. Behind the end of
memory it traps (`write_nil_eq_ok_iff`), so that no instruction writes nothing is part of why none
traps. Every operation comes to the same as the one that runs, on every machine (`execute_eq`).
-/

set_option autoImplicit false

namespace Chip8

open Registers (slot)

namespace Guarded

/-! ### Registers -/

/-- The low nibble of an operand, as an index or a length. -/
def lowNibble (operand : UInt8) : Nat := (operand &&& 0xF).toNat

/-- The byte in register `x`. -/
def register (m : Machine) (x : UInt8) : Guarded UInt8 :=
  found m.registers.bytes[lowNibble x]?

/-- Puts a byte into register `x`. -/
def setRegister (m : Machine) (x value : UInt8) : Guarded Machine := do
  return { m with registers := ⟨← replace m.registers.bytes (lowNibble x) value⟩ }

/-- Puts one or zero into the flag register. -/
def setFlag (m : Machine) (raised : Bool) : Guarded Machine := do
  return { m with registers := ⟨← replace m.registers.bytes 15 (if raised then 1 else 0)⟩ }

/-- The low nibble is a remainder. -/
theorem lowNibble_eq (operand : UInt8) : lowNibble operand = operand.toNat % 16 := by
  rw [lowNibble, UInt8.toNat_and]
  exact Nat.and_two_pow_sub_one_eq_mod operand.toNat 4

/-- The low nibble is below sixteen. -/
theorem lowNibble_lt (operand : UInt8) : lowNibble operand < 16 := by
  rw [lowNibble_eq]
  exact Nat.mod_lt _ (by decide)

/-- Reading a register stays inside of the registers. -/
@[simp]
theorem register_eq (m : Machine) (x : UInt8) : register m x = .ok (m.registers.get x) := by
  refine found_of_eq ?_
  rw [lowNibble_eq]
  exact Vector.getElem?_eq_getElem (slot x).isLt

/-- Setting a register stays inside of the registers. -/
@[simp]
theorem setRegister_eq (m : Machine) (x value : UInt8) :
    setRegister m x value = .ok (m.setRegister x value) := by
  rw [setRegister, replace_of_lt _ (lowNibble_lt x), ok_bind]
  simp only [lowNibble_eq]
  rfl

/-- Setting the flag stays inside of the registers. -/
@[simp]
theorem setFlag_eq (m : Machine) (raised : Bool) : setFlag m raised = .ok (m.setFlag raised) := rfl

/-! ### Memory -/

/-- The fault of an access that reaches past the end of memory. -/
def checkBounds (address length : Nat) : Guarded (Option Fault) := do
  let stop ← sum address length
  return if Memory.size < stop then some (Memory.pastEnd address) else none

/-- The fault of a write that is not granted. One of no byte is granted everywhere. -/
def checkWritable (address length : Nat) : Guarded (Option Fault) :=
  if length = 0 then return none
  else if address < Memory.programStart then return some (.reservedWrite address)
  else checkBounds address length

/-- The `length` bytes from `address` on. -/
def read (m : Memory) (address length : Nat) : Guarded (Except Fault (List UInt8)) :=
  if length = 0 then return .ok []
  else do
    match ← checkBounds address length with
    | some fault => return .error fault
    | none => return .ok (← slice m.bytes address (← sum address length))

/-- Memory with `bytes` from `address` on. -/
def write (m : Memory) (address : Nat) (bytes : List UInt8) : Guarded (Except Fault Memory) := do
  match ← checkWritable address bytes.length with
  | some fault => return .error fault
  | none => return .ok ⟨← overwrite m.bytes address (← sum address bytes.length) bytes⟩

/-- Memory with a program in its place. -/
def loadMemory (m : Memory) (program : List UInt8) : Guarded (Except Fault Memory) :=
  if Memory.programLimit < program.length then
    return .error (.programTooLarge program.length Memory.programLimit)
  else write m Memory.programStart program

/-- The check of bounds sums two indices, and does not overflow if the sum fits into 32 bits. -/
theorem checkBounds_eq {address length : Nat} (h : address + length < 0x100000000) :
    checkBounds address length
      = .ok (if Memory.size < address + length then some (Memory.pastEnd address) else none) := by
  rw [checkBounds, sum_of_lt h]
  rfl

/-- A read takes its slice only if all of it is in memory. -/
theorem read_eq (m : Memory) {address length : Nat} (h : address + length < 0x100000000) :
    read m address length = .ok (m.read address length) := by
  unfold read Memory.read
  by_cases hempty : length = 0
  · rw [if_pos hempty, if_pos hempty]
    rfl
  · rw [if_neg hempty, if_neg hempty, checkBounds_eq h, ok_bind]
    by_cases hend : address + length ≤ Memory.size
    · have hslice := slice_of_le m.bytes (Nat.le_add_right address length) hend
      rw [if_neg (Nat.not_lt.mpr hend), if_pos hend]
      dsimp only
      rw [sum_of_lt h, ok_bind, hslice]
      rfl
    · rw [if_pos (Nat.lt_of_not_le hend), if_neg hend]
      rfl

/-- Copying bytes to a range of memory that they fill is storing them. -/
theorem overwrite_eq_store (m : Memory) {address : Nat} {bytes : List UInt8}
    (h : address + bytes.length ≤ 4096) :
    overwrite m.bytes address (address + bytes.length) bytes
      = .ok (m.store address bytes).bytes := by
  rw [overwrite_of_le _ h rfl]
  refine congrArg Except.ok (Vector.ext fun k hk => Option.some.inj ?_)
  have hstored := m.getElem?_store address bytes k
  rw [Vector.getElem?_eq_getElem hk] at hstored
  rw [hstored, Vector.getElem_ofFn]
  dsimp only
  by_cases hstart : address ≤ k
  · rw [if_pos hstart]
    by_cases hstop : k < address + bytes.length
    -- Within the range there is an item, so the byte that was there before does not show.
    · rw [if_pos ⟨hstart, hstop, hk⟩, List.getElem?_eq_getElem (by omega), Option.getD_some]
    · rw [if_neg (by omega), List.getElem?_eq_none (by omega), Option.getD_none,
        Vector.getElem?_eq_getElem hk]
      rfl
  · rw [if_neg hstart, if_neg (by omega), Vector.getElem?_eq_getElem hk]
    rfl

/-- A write that is granted and in bounds puts its bytes into memory. -/
theorem write_of_granted (m : Memory) {address : Nat} {bytes : List UInt8}
    (hgranted : checkWritable address bytes.length = .ok none)
    (hend : address + bytes.length ≤ 4096) :
    write m address bytes = .ok (.ok (m.store address bytes)) := by
  rw [write, hgranted, ok_bind]
  dsimp only
  rw [sum_of_lt (by omega), ok_bind, overwrite_eq_store m hend]
  rfl

/-- A write takes its slice only if all of it is in memory, unless it is empty. -/
theorem write_eq (m : Memory) {address : Nat} {bytes : List UInt8} (hempty : bytes ≠ [])
    (h : address + bytes.length < 0x100000000) :
    write m address bytes = .ok (m.write address bytes) := by
  have hlength : bytes.length ≠ 0 := fun hnone => hempty (List.eq_nil_of_length_eq_zero hnone)
  have hcheck : checkWritable address bytes.length
      = if address < Memory.programStart then .ok (some (.reservedWrite address))
        else checkBounds address bytes.length := if_neg hlength
  rw [checkBounds_eq h] at hcheck
  rw [Memory.write, if_neg hempty]
  -- The write may be too low, in bounds or too high. Only in bounds is a slice taken.
  by_cases hstart : address < Memory.programStart
  · rw [write, hcheck, if_pos hstart, if_pos hstart]
    rfl
  · rw [if_neg hstart] at hcheck ⊢
    by_cases hend : address + bytes.length ≤ Memory.size
    · rw [if_neg (Nat.not_lt.mpr hend)] at hcheck
      rw [if_pos hend, write_of_granted m hcheck hend]
    · rw [if_pos (Nat.lt_of_not_le hend)] at hcheck
      rw [write, hcheck, if_neg hend]
      rfl

/-- The empty write traps behind the end of memory. -/
theorem write_nil_of_lt (m : Memory) {address : Nat} (h : 0x1000 < address) :
    ∃ trap, write m address [] = .error trap := by
  have hgranted : checkWritable address 0 = .ok none := rfl
  rw [write, List.length_nil, hgranted, ok_bind]
  dsimp only
  by_cases hsum : address + 0 < 0x100000000
  · rw [sum_of_lt hsum, ok_bind, overwrite, if_neg (by omega)]
    exact ⟨.range, rfl⟩
  · rw [sum, if_neg hsum]
    exact ⟨.overflow, rfl⟩

/-- The empty write is granted everywhere, but it does not trap up to the end of memory only. -/
theorem write_nil_eq_ok_iff (m : Memory) (address : Nat) :
    write m address [] = .ok (m.write address []) ↔ address ≤ 0x1000 := by
  constructor
  · intro hok
    apply Nat.le_of_not_lt
    intro hbehind
    obtain ⟨trap, htrap⟩ := write_nil_of_lt m hbehind
    rw [htrap] at hok
    cases hok
  · exact fun hend => write_of_granted m rfl hend

/-- Loading a program stays inside of memory, whatever its length. -/
theorem loadMemory_eq (m : Memory) (program : List UInt8) :
    loadMemory m program = .ok (m.load program) := by
  unfold loadMemory Memory.load
  by_cases hlimit : Memory.programLimit < program.length
  · rw [if_pos hlimit, if_pos hlimit]
    rfl
  · rw [if_neg hlimit, if_neg hlimit]
    have hlength : program.length ≤ 0xE00 := Nat.le_of_not_lt hlimit
    cases program with
    | nil => exact (write_nil_eq_ok_iff m 0x200).mpr (by decide)
    | cons byte rest =>
      refine write_eq m (List.cons_ne_nil byte rest) ?_
      rw [Memory.programStart]
      omega

/-! ### Opcodes -/

/-- The word of two bytes, the high one first. -/
def assemble (high low : UInt8) : Guarded Opcode := do
  let k ← places 16 8
  return high.toUInt16 <<< UInt16.ofNat k ||| low.toUInt16

/-- The opcode that the program counter points at. -/
def fetch (m : Machine) : Guarded (Except Fault Opcode) := do
  match ← read m.memory m.pc.toNat Opcode.size with
  | .error fault => return .error fault
  | .ok bytes => return .ok (← assemble (← found bytes[0]?) (← found bytes[1]?))

/-- The bits of a mask, shifted to the last place. -/
def field (w mask : Opcode) (k : Nat) : Guarded UInt16 := do
  return (w &&& mask) >>> UInt16.ofNat (← places 16 k)

/-- The instruction that an opcode stands for, looked up by its fields. -/
def decode? (w : Opcode) : Guarded (Option Instruction) := do
  let family ← field w 0xF000 12
  let x ← field w 0x0F00 8
  let y ← field w 0x00F0 4
  return Instruction.decode? (.ofNibbles family.toNat x.toUInt8 y.toUInt8 w.nibble)

/-- Shifting and joining two bytes makes the opcode of them. -/
theorem assemble_eq (high low : UInt8) : assemble high low = .ok (.ofBytes high low) := by
  rw [assemble, places_of_lt (by decide), ok_bind]
  refine congrArg Except.ok (UInt16.toNat_inj.mp ?_)
  have hhigh := high.toNat_lt
  have hlow := low.toNat_lt
  have hplaces : (UInt16.ofNat 8).toNat % 16 = 8 := rfl
  rw [UInt16.toNat_or, UInt16.toNat_shiftLeft, hplaces, UInt8.toNat_toUInt16, UInt8.toNat_toUInt16,
    Opcode.toNat_ofBytes, Nat.shiftLeft_eq, Nat.mod_eq_of_lt (by omega), Nat.mul_comm]
  exact (Nat.two_pow_add_eq_or_of_lt hlow high.toNat).symm

/-- A fetch takes both bytes of an opcode, or none. -/
theorem fetch_eq (m : Machine) : fetch m = .ok m.fetch := by
  have hpc := m.pc.toNat_lt
  have hread : m.memory.read m.pc.toNat 2 = if m.pc.toNat + 2 ≤ 4096
      then .ok (m.memory.slice m.pc.toNat 2) else .error (Memory.pastEnd m.pc.toNat) :=
    if_neg (by decide)
  rw [fetch, Opcode.size, read_eq _ (by omega), ok_bind, hread, Machine.fetch, Memory.readOpcode]
  by_cases hend : m.pc.toNat + 2 ≤ 4096
  · -- The read has given both bytes, so both indices are in bounds.
    have hbyte (k : Nat) (hk : k < 2) : (m.memory.slice m.pc.toNat 2)[k]?
        = some m.memory.bytes[m.pc.toNat + k] := by
      rw [Memory.getElem?_slice _ hend, if_pos hk]
      exact Vector.getElem?_eq_getElem (by omega)
    rw [dif_pos hend, if_pos hend]
    dsimp only
    rw [found_of_eq (hbyte 0 (by decide)), ok_bind, found_of_eq (hbyte 1 (by decide)),
      ok_bind, assemble_eq]
    rfl
  · rw [dif_neg hend, if_neg hend]
    rfl

/-- A field of four bits, `k` places from the last one. -/
theorem field_eq (w : Opcode) {mask : Opcode} {k : Nat} (hk : k < 16)
    (hmask : mask.toNat >>> k = 15) :
    field w mask k = .ok (UInt16.ofNat (w.toNat >>> k % 16)) := by
  rw [field, places_of_lt hk, ok_bind]
  refine congrArg Except.ok (UInt16.toNat_inj.mp ?_)
  have hplaces : (UInt16.ofNat k).toNat % 16 = k := by
    rw [UInt16.toNat_ofNat']
    omega
  have hnibble := Nat.and_two_pow_sub_one_eq_mod (w.toNat >>> k) 4
  rw [UInt16.toNat_shiftRight, hplaces, UInt16.toNat_and, Nat.shiftRight_and_distrib, hmask,
    UInt16.toNat_ofNat', Nat.mod_eq_of_lt (by omega)]
  exact hnibble

/-- Looking up an instruction by the fields of an opcode is looking it up by the opcode. -/
theorem decode?_eq (w : Opcode) : decode? w = .ok (Instruction.decode? w) := by
  have hw := w.toNat_lt
  have hfamily : (UInt16.ofNat (w.toNat >>> 12 % 16)).toNat = w.family := by
    rw [UInt16.toNat_ofNat', Opcode.family]
    omega
  have hx : (UInt16.ofNat (w.toNat >>> 8 % 16)).toUInt8 = w.x := by
    apply UInt8.toNat_inj.mp
    rw [UInt16.toNat_toUInt8, UInt16.toNat_ofNat', Opcode.x, UInt8.toNat_ofNat']
    omega
  have hy : (UInt16.ofNat (w.toNat >>> 4 % 16)).toUInt8 = w.y := by
    apply UInt8.toNat_inj.mp
    rw [UInt16.toNat_toUInt8, UInt16.toNat_ofNat', Opcode.y, UInt8.toNat_ofNat']
    omega
  rw [decode?, field_eq w (by decide) (by decide), ok_bind, field_eq w (by decide) (by decide),
    ok_bind, field_eq w (by decide) (by decide), ok_bind, hfamily, hx, hy, Opcode.ofNibbles_fields]
  rfl

/-! ### Operations -/

/-- Whether the condition holds on a machine. -/
def holds (m : Machine) : Condition → Guarded Bool
  | .byteEq x value => return (← register m x) == value
  | .byteNe x value => return (← register m x) != value
  | .registerEq x y => return (← register m x) == (← register m y)
  | .registerNe x y => return (← register m x) != (← register m y)
  | .keyDown x => return m.keypad.isDown (← register m x)
  | .keyUp x => return !m.keypad.isDown (← register m x)

/-- The result of an operation on two bytes, and the flag if it sets one. -/
def eval (d : Dialect) (a b : UInt8) : AluOp → Guarded (UInt8 × Option Bool)
  | .shiftRight => do
    let s := if d.shiftReadsSecond then b else a
    return (s >>> UInt8.ofNat (← places 8 1), some (s &&& 1 == 1))
  | .shiftLeft => do
    let s := if d.shiftReadsSecond then b else a
    return (s <<< UInt8.ofNat (← places 8 1), some (decide (0x80 ≤ s)))
  | op => return op.eval d a b

/-- Combines two registers into the first. -/
def combine (m : Machine) (op : AluOp) (x y : UInt8) : Guarded Machine := do
  let (value, flag) ← eval m.dialect (← register m x) (← register m y) op
  let m ← setRegister m x value
  match flag with
  | some raised => setFlag m raised
  | none => return m

/-- A timer that is counted down by one, unless it is at zero. -/
def countDown (timer : UInt8) : Guarded UInt8 :=
  if timer = 0 then return 0 else return UInt8.ofNat (← difference timer.toNat 1)

/-- Counts both timers down by one. -/
def tick (m : Machine) : Guarded Machine := do
  return { m with delay := ← countDown m.delay, sound := ← countDown m.sound }

/-- The operation on `m` that puts a part in its place, if the part could be had. -/
def ofPart {α : Type} (m : Machine) (part : Except Fault α) (put : α → Guarded Machine) :
    Guarded Outcome :=
  match part with
  | .ok a => return .done (← put a)
  | .error fault => return ⟨some fault, m⟩

/-- Writes bytes to memory. -/
def writeMemory (m : Machine) (address : Nat) (bytes : List UInt8) : Guarded Outcome := do
  ofPart m (← write m.memory address bytes) fun memory => return { m with memory }

/-- Copies a program to its place in memory. -/
def loadProgram (m : Machine) (program : List UInt8) : Guarded Outcome := do
  ofPart m (← loadMemory m.memory program) fun memory => return { m with memory }

/-- Draws the sprite at the index and reports a collision in the flag. -/
def drawSprite (m : Machine) (x y height : UInt8) : Guarded Outcome := do
  ofPart m (← read m.memory m.index.toNat (lowNibble height)) fun sprite => do
    let column ← register m x
    let row ← register m y
    let drawn ← blit m.screen sprite column.toNat row.toNat
    return { ← setFlag m drawn.collided with screen := drawn.screen }

/-- Stores registers 0 to `x` in memory at the index. -/
def storeRegisters (m : Machine) (x : UInt8) : Guarded Outcome := do
  writeMemory m m.index.toNat (← slice m.registers.bytes 0 (← sum (lowNibble x) 1))

/-- Loads registers 0 to `x` from memory at the index, by way of a copy. -/
def loadRegisters (m : Machine) (x : UInt8) : Guarded Outcome := do
  let count ← sum (lowNibble x) 1
  ofPart m (← read m.memory m.index.toNat count) fun bytes => do
    let copy ← overwrite (.replicate 16 0) 0 count bytes
    return { m with registers := ⟨← overwrite m.registers.bytes 0 count (← slice copy 0 count)⟩ }

/-- Applies an instruction. -/
def execute (instr : Instruction) (m : Machine) : Guarded Outcome :=
  match instr with
  | .skip condition => return .done (if ← holds m condition then m.advance else m)
  | .load x value => return .done (← setRegister m x value)
  | .addByte x value => return .done (← setRegister m x ((← register m x) + value))
  | .alu op x y => return .done (← combine m op x y)
  | .jumpOffset address => return .done { m with pc := address + (← register m 0).toUInt16 }
  | .random x mask => do
    let (byte, m) := m.drawRandom
    return .done (← setRegister m x (byte &&& mask))
  | .draw x y height => drawSprite m x y height
  | .readDelay x => return .done (← setRegister m x m.delay)
  | .awaitKey x =>
    match m.keypad.firstPressed? with
    | some k => return .done (← setRegister m x k)
    | none => return .done m.rewind
  | .setDelay x => return .done { m with delay := ← register m x }
  | .setSound x => return .done { m with sound := ← register m x }
  | .addIndex x => return .done { m with index := m.index + (← register m x).toUInt16 }
  | .storeDecimal x => do
    writeMemory m m.index.toNat (Machine.decimalDigits (← register m x))
  | .storeRegisters x => storeRegisters m x
  | .loadRegisters x => loadRegisters m x
  -- The others have no operand, or one that is taken as it is.
  | .system _ | .clearScreen | .ret | .jump _ | .call _ | .setIndex _ | .glyph _ =>
    return instr.execute m

/-- Deciding a condition stays inside of the registers. -/
theorem holds_eq (m : Machine) (condition : Condition) :
    holds m condition = .ok (condition.holds m) := by
  cases condition <;> simp [holds, Condition.holds]

/-- No operation on two bytes overflows or shifts too far. -/
theorem eval_eq (d : Dialect) (a b : UInt8) (op : AluOp) : eval d a b op = .ok (op.eval d a b) := by
  cases op <;> rfl

/-- An operation on two registers does nothing outside of its domain. -/
theorem combine_eq (m : Machine) (op : AluOp) (x y : UInt8) :
    combine m op x y = .ok (m.combine op x y) := by
  rw [combine, register_eq, ok_bind, register_eq, ok_bind, eval_eq, ok_bind, Machine.combine]
  obtain ⟨value, flag⟩ := op.eval m.dialect (m.registers.get x) (m.registers.get y)
  dsimp only
  rw [setRegister_eq, ok_bind]
  cases flag with
  | none => rfl
  | some raised => rfl

/-- Counting down does not go below zero. -/
theorem countDown_eq (timer : UInt8) :
    countDown timer = .ok (if timer = 0 then 0 else timer - 1) := by
  unfold countDown
  by_cases hzero : timer = 0
  · rw [if_pos hzero, if_pos hzero]
    rfl
  · have hpos : 1 ≤ timer.toNat := Nat.pos_of_ne_zero fun h => hzero (UInt8.toNat_inj.mp h)
    have hone : (1 : UInt8) ≤ timer := UInt8.le_iff_toNat_le.mpr hpos
    rw [if_neg hzero, if_neg hzero, difference_of_le hpos, ok_bind]
    refine congrArg Except.ok (UInt8.toNat_inj.mp ?_)
    have htimer := timer.toNat_lt
    rw [UInt8.toNat_ofNat', UInt8.toNat_sub_of_le _ _ hone, UInt8.toNat_one]
    omega

/-- A tick does nothing outside of its domain. -/
theorem tick_eq (m : Machine) : tick m = .ok m.tick := by
  rw [tick, countDown_eq, ok_bind, countDown_eq, ok_bind]
  rfl

/-- An outcome that rests on a part stays inside of its domain, if it does wherever the part
succeeds. -/
theorem ofPart_eq {α : Type} {m : Machine} {part : Except Fault α} {put : α → Guarded Machine}
    {put' : α → Machine} (h : ∀ a, part = .ok a → put a = .ok (put' a)) :
    ofPart m part put = .ok (Outcome.ofPart m part put') := by
  cases part with
  | error fault => rfl
  | ok a =>
    rw [ofPart, h a rfl]
    rfl

/-- A write of at least one byte does nothing outside of its domain. -/
theorem writeMemory_eq (m : Machine) {address : Nat} {bytes : List UInt8} (hempty : bytes ≠ [])
    (h : address + bytes.length < 0x100000000) :
    writeMemory m address bytes = .ok (m.write address bytes) := by
  rw [writeMemory, write_eq m.memory hempty h, ok_bind]
  exact ofPart_eq fun _ _ => rfl

/-- Loading a program into a machine does nothing outside of its domain. -/
theorem loadProgram_eq (m : Machine) (program : List UInt8) :
    loadProgram m program = .ok (m.load program) := by
  rw [loadProgram, loadMemory_eq, ok_bind]
  exact ofPart_eq fun _ _ => rfl

/-- Drawing a sprite does nothing outside of its domain, wherever it is drawn. -/
theorem drawSprite_eq (m : Machine) (x y height : UInt8) :
    drawSprite m x y height = .ok (m.drawSprite x y height) := by
  have hindex := m.index.toNat_lt
  have hheight := lowNibble_lt height
  rw [drawSprite, read_eq _ (by omega), ok_bind, lowNibble_eq, Machine.drawSprite]
  refine ofPart_eq fun sprite _ => ?_
  rw [register_eq, ok_bind, register_eq, ok_bind, blit_eq, ok_bind, setFlag_eq]
  rfl

/-- Storing registers does nothing outside of its domain. -/
theorem storeRegisters_eq (m : Machine) (x : UInt8) :
    storeRegisters m x = .ok (m.write m.index.toNat (m.registers.upTo x)) := by
  have hindex := m.index.toNat_lt
  have hx := lowNibble_lt x
  have hlength := m.registers.length_upTo x
  have hupTo : (m.registers.bytes.extract 0 (lowNibble x + 1)).toList = m.registers.upTo x := by
    rw [lowNibble_eq]
    exact Vector.toList_take
  rw [storeRegisters, sum_of_lt (by omega), ok_bind, slice_of_le _ (by omega) (by omega), ok_bind,
    hupTo]
  refine writeMemory_eq m (List.ne_nil_of_length_pos (by omega)) ?_
  omega

/-- Items that were copied to the front of an array stand there. -/
theorem slice_of_overwrite {α : Type} {n : Nat} (xs : Vector α n) {items : List α}
    (h : items.length ≤ n) :
    ∃ copy, overwrite xs 0 items.length items = .ok copy ∧
      slice copy 0 items.length = .ok items := by
  refine ⟨_, overwrite_of_le xs h (Nat.zero_add _), ?_⟩
  rw [slice_of_le _ (Nat.zero_le _) h]
  refine congrArg Except.ok (List.ext_getElem (by simp [h]) fun k hk hitems => ?_)
  rw [Vector.getElem_toList, Vector.getElem_extract, Vector.getElem_ofFn]
  simp [hitems]

/-- Filling registers does nothing outside of its domain. -/
theorem loadRegisters_eq (m : Machine) (x : UInt8) :
    loadRegisters m x = .ok (m.loadRegisters x) := by
  have hindex := m.index.toNat_lt
  have hx := lowNibble_lt x
  rw [loadRegisters, sum_of_lt (by omega), ok_bind, read_eq _ (by omega), ok_bind,
    Machine.loadRegisters, lowNibble_eq]
  refine ofPart_eq fun bytes hread => ?_
  have hlength : bytes.length = x.toNat % 16 + 1 := Memory.length_of_read hread
  rw [← hlength]
  -- As many bytes were read as the copy is sliced for, so the slices fit onto each other.
  obtain ⟨copy, hcopy, hitems⟩ :=
    slice_of_overwrite (.replicate 16 0) (show bytes.length ≤ 16 by omega)
  rw [hcopy, ok_bind, hitems, ok_bind, overwrite_of_le _ (by omega) (Nat.zero_add _), ok_bind]
  rfl

/-- No instruction traps, on any machine and with operands of any width. -/
theorem execute_eq (instr : Instruction) (m : Machine) :
    execute instr m = .ok (instr.execute m) := by
  cases instr with
  | skip condition =>
    rw [execute, holds_eq]
    rfl
  | alu op x y =>
    rw [execute, combine_eq]
    rfl
  | draw x y height => exact drawSprite_eq m x y height
  | awaitKey x =>
    rw [execute, Instruction.execute]
    cases m.keypad.firstPressed? with
    | none => rfl
    | some k =>
      simp only [setRegister_eq, ok_bind]
      rfl
  | storeDecimal x =>
    have hindex := m.index.toNat_lt
    rw [execute, register_eq, ok_bind]
    refine writeMemory_eq m (List.cons_ne_nil _ _) ?_
    simp only [Machine.decimalDigits, List.length_cons, List.length_nil]
    omega
  | storeRegisters x => exact storeRegisters_eq m x
  | loadRegisters x => exact loadRegisters_eq m x
  | system | clearScreen | ret | jump | call | setIndex | glyph => rfl
  | _ => simp [execute, Instruction.execute]

end Guarded

end Chip8
