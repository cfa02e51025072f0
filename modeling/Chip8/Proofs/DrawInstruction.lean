import Chip8.Proofs.Access
import Chip8.Proofs.Drawing
import Chip8.Proofs.Footprint
import Chip8.Proofs.Lit

/-!
# `Chip8.Proofs.DrawInstruction`: from memory to the screen and the flag

The instruction that draws puts four parts together: a read of memory, two registers that say
where to draw, the drawing, and the flag that reports what was erased. When the read is granted the
instruction is one drawing, of the bytes that were read, and one write of the flag
(`Machine.drawSprite_of_read`). `Machine.covers_drawingAt` says which pixels it covers in terms of
memory, and `draw_end_to_end` says the rest in terms of the machine before it.

The flag is a register like the others, so it can be the one that says where to draw. The position
is read before the flag is written, and so the first drawing is at the old position in any case. A
second drawing in a row finds the position where it was only if the flag is not a part of it. Then
it takes back what the first one did, and it erases what the first one turned on.
-/

set_option autoImplicit false

namespace Chip8

open Registers (slot flag)
open Screen (Drawing)

/-! ### The flag as a report -/

namespace Registers

/-- The flag is one if `p` holds, and zero if not. -/
def FlagTells (r : Registers) (p : Prop) : Prop :=
  (p → r.get flag = 1) ∧ (¬ p → r.get flag = 0)

/-- A flag that was set to the truth of a statement tells of it. -/
theorem flagTells_setFlag (r : Registers) {raised : Bool} {p : Prop} (h : raised = true ↔ p) :
    (r.setFlag raised).FlagTells p := by
  have hflag : (r.setFlag raised).get flag = if raised then 1 else 0 := by
    rw [setFlag, get_set, if_pos rfl]
  constructor
  · intro hp
    rw [hflag, if_pos (h.mpr hp)]
  · intro hp
    rw [hflag, if_neg (mt h.mp hp)]

end Registers

/-! ### Drawings -/

namespace Screen

/-- The second of two equal drawings in a row takes back the first one. -/
theorem draw_draw (s : Screen) (d : Drawing) :
    (s.draw d.sprite d.x d.y).draw d.sprite d.x d.y = s := by
  apply ext_pixel
  intro px py
  rw [pixel_draw, pixel_draw, Bool.xor_assoc, Bool.xor_self, Bool.xor_false]

/-- A drawing collides if and only if it turns a pixel off. -/
theorem collides_iff_erases (s : Screen) (d : Drawing) :
    s.collides d.sprite d.x d.y = true ↔
      ∃ px py, s.pixel px py = true ∧ (s.draw d.sprite d.x d.y).pixel px py = false := by
  rw [collides_iff]
  simp only [pixel_draw]
  constructor
  · rintro ⟨px, py, hlit, hcovers⟩
    exact ⟨px, py, hlit, by rw [hlit, hcovers, Bool.xor_self]⟩
  · rintro ⟨px, py, hlit, hdark⟩
    refine ⟨px, py, hlit, ?_⟩
    rw [hlit, Bool.true_xor, Bool.not_eq_false'] at hdark
    exact hdark

/-- Drawing a sprite without rows changes nothing. -/
theorem draw_nil (s : Screen) (x y : Nat) : s.draw [] x y = s := by
  apply ext_pixel
  intro px py
  rw [s.pixel_draw ⟨[], x, y⟩, Drawing.covers, List.getElem?_nil, Bool.and_false, Bool.xor_false]

/-- A sprite without rows collides with nothing. -/
theorem collides_nil (s : Screen) (x y : Nat) : s.collides [] x y = false := by
  rw [← Bool.not_eq_true, s.collides_iff_erases ⟨[], x, y⟩, draw_nil]
  rintro ⟨px, py, hlit, hdark⟩
  exact Bool.false_ne_true (hdark.symm.trans hlit)

end Screen

/-! ### The instruction -/

namespace Machine

variable {m : Machine} {x y height : UInt8} {sprite : List UInt8}

/-- A drawing at the position in registers `x` and `y`. -/
def drawingAt (m : Machine) (sprite : List UInt8) (x y : UInt8) : Drawing :=
  ⟨sprite, (m.registers.get x).toNat, (m.registers.get y).toNat⟩

/-- The machine after a drawing, with the collision in the flag. -/
def drawn (m : Machine) (d : Drawing) : Machine :=
  { m with
    registers := m.registers.setFlag (m.screen.collides d.sprite d.x d.y)
    screen := m.screen.draw d.sprite d.x d.y }

/-- The bytes that the instruction draws are read at the index. -/
def readSprite (m : Machine) (height : UInt8) : Except Fault (List UInt8) :=
  m.memory.read m.index.toNat (height.toNat % 16)

/-- With the sprite read, the instruction is a drawing. -/
theorem drawSprite_of_read (h : m.readSprite height = .ok sprite) :
    m.drawSprite x y height = .done (m.drawn (m.drawingAt sprite x y)) := by
  rw [readSprite] at h
  rw [drawSprite, h]
  rfl

/-- A draw succeeds exactly when its sprite can be read. -/
theorem fault_drawSprite_eq_none_iff :
    (m.drawSprite x y height).fault = none ↔ ∃ sprite, m.readSprite height = .ok sprite :=
  Outcome.fault_ofPart_eq_none_iff

/-- The pixels that the drawing covers, in terms of memory and registers. -/
theorem covers_drawingAt (h : m.readSprite height = .ok sprite) (x y : UInt8) {px py : Nat}
    (hpx : px < 64) (hpy : py < 32) :
    let left := (m.registers.get x).toNat % 64
    let top := (m.registers.get y).toNat % 32
    (m.drawingAt sprite x y).covers px py =
      (decide ((left ≤ px ∧ px < left + 8) ∧ top ≤ py ∧ py < top + height.toNat % 16) &&
        (m.memory.bytes[m.index.toNat + (py - top)]?.getD 0).toNat.testBit (7 - (px - left))) := by
  intro left top
  obtain ⟨-, hlength, hbytes⟩ := (m.memory.read_eq_ok_iff _ _ sprite).mp h
  unfold Drawing.covers
  dsimp only [drawingAt]
  by_cases hrow : py - top < sprite.length
  · have hbyte := hbytes (py - top) (hlength ▸ hrow)
    rw [List.getElem?_eq_getElem hrow] at hbyte ⊢
    rw [← hbyte, Option.getD_some]
    congr 1
    apply decide_eq_decide.mpr
    omega
  · -- Memory may have a byte here, but it is not one of the sprite.
    rw [List.getElem?_eq_none (Nat.le_of_not_lt hrow), Bool.and_false,
      decide_eq_false (p := _ ∧ top ≤ py ∧ _) (by omega), Bool.false_and]

/-- A drawing changes the screen and the flag. -/
theorem drawn_eq (m : Machine) (d : Drawing) :
    m.drawn d = { m with
      registers := m.registers.set flag ((m.drawn d).registers.get flag)
      screen := (m.drawn d).screen } := by
  rw [drawn, Registers.setFlag, Registers.get_set, if_pos rfl]

/-- A drawing whose position is not in the flag leaves its position where it was. -/
theorem drawingAt_drawn (hx : slot x ≠ slot flag) (hy : slot y ≠ slot flag) (d : Drawing) :
    (m.drawn d).drawingAt sprite x y = m.drawingAt sprite x y := by
  rw [drawingAt, drawn, Registers.get_setFlag_of_ne _ _ hx, Registers.get_setFlag_of_ne _ _ hy]
  rfl

/-- After a drawing, the instruction draws the same sprite at the same place, if the flag has no
part in it. -/
theorem drawSprite_drawn (hx : slot x ≠ slot flag) (hy : slot y ≠ slot flag)
    (h : m.readSprite height = .ok sprite) (d : Drawing) :
    (m.drawn d).drawSprite x y height
      = .done ((m.drawn d).drawn (m.drawingAt sprite x y)) := by
  -- A drawing changes neither memory nor the index.
  have hread : (m.drawn d).readSprite height = .ok sprite := h
  rw [drawSprite_of_read hread, drawingAt_drawn hx hy]

end Machine

namespace Instruction

open Machine (drawSprite_of_read fault_drawSprite_eq_none_iff covers_drawingAt)

/-- Drawing, end to end. On any machine and with any operands, the instruction succeeds if and only
if memory has all the bytes to be drawn. Then the screen is the exclusive or with these bytes, cut
off at the edges, at the position that the two registers held before. The flag, which may be one of
the two, tells whether a lit pixel was turned off, and everything else stays. No byte at all is
drawn from everywhere, and clears the flag. Twice in a row, with a position that does not lie in the
flag, the instruction restores the screen, and the flag tells in the end whether the first time
turned a pixel on. -/
theorem draw_end_to_end (m : Machine) (x y height : UInt8) :
    let rows := height.toNat % 16
    let left := (m.registers.get x).toNat % 64
    let top := (m.registers.get y).toNat % 32
    let within := fun px py => (left ≤ px ∧ px < left + 8) ∧ top ≤ py ∧ py < top + rows
    let bit := fun px py =>
      (m.memory.bytes[m.index.toNat + (py - top)]?.getD 0).toNat.testBit (7 - (px - left))
    let later := (draw x y height).execute m
    (later.fault = none ↔ rows = 0 ∨ m.index.toNat + rows ≤ 0x1000) ∧
    (later.fault = none →
      (∀ (px : Fin 64) (py : Fin 32), later.machine.screen.pixel px py
        = if within px py then m.screen.pixel px py ^^ bit px py else m.screen.pixel px py) ∧
      later.machine.registers.FlagTells
        (∃ px py, m.screen.pixel px py = true ∧ later.machine.screen.pixel px py = false) ∧
      later.machine = { m with
        registers := m.registers.set flag (later.machine.registers.get flag)
        screen := later.machine.screen }) ∧
    (rows = 0 → later = .done { m with registers := m.registers.set flag 0 }) ∧
    (x.toNat % 16 ≠ 15 → y.toNat % 16 ≠ 15 → later.fault = none →
      let again := (draw x y height).execute later.machine
      again.fault = none ∧ again.machine.screen = m.screen ∧
      again.machine.registers.FlagTells
        (∃ px py, m.screen.pixel px py = false ∧ later.machine.screen.pixel px py = true)) := by
  intro rows left top within bit later
  have hdrawn (hsucceeds : later.fault = none) : ∃ sprite, m.readSprite height = .ok sprite ∧
      later = .done (m.drawn (m.drawingAt sprite x y)) := by
    obtain ⟨sprite, hread⟩ := fault_drawSprite_eq_none_iff.mp hsucceeds
    exact ⟨sprite, hread, drawSprite_of_read hread⟩
  refine ⟨fault_drawSprite_eq_none_iff.trans m.memory.exists_read_iff, ?_, ?_, ?_⟩
  · intro hsucceeds
    obtain ⟨sprite, hread, hlater⟩ := hdrawn hsucceeds
    rw [hlater]
    refine ⟨fun px py => ?_, ?_, m.drawn_eq _⟩
    · show (m.screen.draw _ _ _).pixel px py = _
      rw [m.screen.pixel_draw, covers_drawingAt hread x y px.isLt py.isLt]
      by_cases h : within px py
      · rw [if_pos h, decide_eq_true h, Bool.true_and]
      · rw [if_neg h, decide_eq_false h, Bool.false_and, Bool.xor_false]
    · exact m.registers.flagTells_setFlag (m.screen.collides_iff_erases _)
  · intro hrows
    -- Without a byte there is nothing to draw, and so nothing to erase.
    have hread : m.readSprite height = .ok [] := if_pos hrows
    show m.drawSprite x y height = _
    rw [drawSprite_of_read hread, Machine.drawn]
    dsimp only [Machine.drawingAt]
    rw [Screen.draw_nil, Screen.collides_nil]
    rfl
  · intro hx hy hsucceeds again
    obtain ⟨sprite, hread, hlater⟩ := hdrawn hsucceeds
    have hslotx : slot x ≠ slot flag := fun h => hx (congrArg Fin.val h)
    have hsloty : slot y ≠ slot flag := fun h => hy (congrArg Fin.val h)
    have hagain : again = .done ((m.drawn (m.drawingAt sprite x y)).drawn
        (m.drawingAt sprite x y)) := by
      show later.machine.drawSprite x y height = _
      rw [hlater]
      exact Machine.drawSprite_drawn hslotx hsloty hread _
    rw [hagain, hlater]
    exact ⟨rfl, m.screen.draw_draw _,
      Registers.flagTells_setFlag _ (m.screen.collides_draw_iff _)⟩

/-- A machine whose index points at the last byte of memory, with two bits set, and with positions
at the right edge in register 3 and at the lower edge in the flag. -/
def aboutToDrawLastByte : Machine :=
  { Machine.fresh {} with
    registers := (Registers.zero.set 0x3 127).set 0xF 31
    index := 0xFFF
    memory := Memory.zero.store 0xFFF [0xC0] }

/-- In the last corner one of two bits is drawn, at the row that the flag held before it reports
that nothing was erased. A second byte would lie behind memory, and none at all clears the flag. In
the first row, drawn twice, the bit is gone again and the flag is raised. -/
theorem draw_end_to_end_lastByte :
    let m := aboutToDrawLastByte
    let corner := (draw 0x3 0xF 1).execute m
    let once := (draw 0x3 0x4 1).execute m
    let twice := (draw 0x3 0x4 1).execute once.machine
    (corner.fault = none ∧ corner.machine.screen.pixel 63 31 = true ∧
      corner.machine.screen.pixel 0 31 = false ∧ corner.machine.registers.get flag = 0) ∧
    ((draw 0x3 0xF 2).execute m).fault ≠ none ∧
    ((draw 0x3 0xF 0x20).execute m).machine.registers.get flag = 0 ∧
    (once.fault = none ∧ once.machine.screen.pixel 63 0 = true ∧ twice.fault = none ∧
      twice.machine.screen = m.screen ∧ twice.machine.registers.get flag = 1) := by
  intro m corner once twice
  obtain ⟨hcorner, hdrawn, -, -⟩ := draw_end_to_end m 0x3 0xF 1
  obtain ⟨htoolong, -, -, -⟩ := draw_end_to_end m 0x3 0xF 2
  obtain ⟨-, -, hempty, -⟩ := draw_end_to_end m 0x3 0xF 0x20
  obtain ⟨honce, hlit, -, htwice⟩ := draw_end_to_end m 0x3 0x4 1
  have hcornerok : corner.fault = none := hcorner.mpr (.inr (by decide))
  have honceok : once.fault = none := honce.mpr (.inr (by decide))
  obtain ⟨hpixel, hflag, -⟩ := hdrawn hcornerok
  obtain ⟨hagain, hrestored, hraised⟩ := htwice (by decide) (by decide) honceok
  have hshown : once.machine.screen.pixel 63 0 = true := by
    refine ((hlit honceok).1 63 0).trans ?_
    decide +kernel
  refine ⟨⟨hcornerok, ?_, ?_, hflag.2 ?_⟩, ?_, ?_, honceok, hshown, hagain, hrestored,
    hraised.1 ⟨63, 0, Screen.pixel_blank 63 0, hshown⟩⟩
  · refine (hpixel 63 31).trans ?_
    decide +kernel
  · refine (hpixel 0 31).trans ?_
    decide +kernel
  · rintro ⟨px, py, hbefore, -⟩
    exact Bool.false_ne_true ((Screen.pixel_blank px py).symm.trans hbefore)
  · exact fun hnone => absurd (htoolong.mp hnone) (by decide)
  · rw [hempty (by decide)]
    rfl

end Instruction

end Chip8
