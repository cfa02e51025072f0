import Chip8.Proofs.Drawing
import Chip8.Proofs.Guards

/-!
# `Chip8.Proofs.Blit`: a sprite, pixel by pixel

`Screen.draw` takes the picture of a whole sprite and joins it to the screen in one operation.
Here the same sprite is drawn one pixel after the other, the way that a screen in memory is written:
row by row and from left to right, with an end to the row at the right edge and an end to the
drawing at the lower one, and with every index guarded (`Guarded.blit`).

`Drawn marks b b'` says what such a drawing has done on its way from `b` to `b'`: it turned over the
pixels of `marks`, and it noted a collision if one of these was lit. A pixel is drawn by one step
(`drawPixel_drawn`), and two drawings that have no pixel in common make one (`Drawn.trans`). So rows
are drawn by induction on the pixels that are left (`drawRow_drawn`) and sprites by induction on
the rows that are left (`drawRows_drawn`). What is drawn and noted is determined by `marks`, so the
drawing by pixels is the one by pictures (`blit_eq`).
-/

set_option autoImplicit false

namespace Chip8

open Screen (Drawing)

/-- A drawing under way: the screen as it is by now, and whether a lit pixel was turned off. -/
@[ext]
structure Blit where
  screen : Screen
  collided : Bool

namespace Guarded

/-! ### Pixel by pixel -/

/-- Draws a bit of a sprite byte in column `px` and row `py`. -/
def drawPixel (b : Blit) (byte : UInt8) (px py bit : Nat) : Guarded Blit := do
  let k ← places 8 (← difference 7 bit)
  let isSet := byte >>> UInt8.ofNat k &&& 1 == 1
  let row ← found b.screen.rows[py]?
  let isLit ← found (row.getMsb? px)
  let turned := if isSet then row ^^^ BitVec.twoPow 64 (63 - px) else row
  return ⟨⟨← replace b.screen.rows py turned⟩, b.collided || (isSet && isLit)⟩

/-- Draws up to `n` bits of a sprite byte from a bit on, with its leftmost bit in column `x`. What
lies past the right edge is not drawn. -/
def drawRow (b : Blit) (byte : UInt8) (x py bit : Nat) : Nat → Guarded Blit
  | 0 => return b
  | n + 1 => do
    let px ← sum x bit
    if Screen.width ≤ px then return b
    else drawRow (← drawPixel b byte px py bit) byte x py (bit + 1) n

/-- Draws the bytes of a sprite from a row on, with the upper left corner of the whole sprite at `x`
and `y`. What lies past the lower edge is not drawn. -/
def drawRows (b : Blit) (x y row : Nat) : List UInt8 → Guarded Blit
  | [] => return b
  | byte :: rest => do
    let py ← sum y row
    if Screen.height ≤ py then return b
    else drawRows (← drawRow b byte x py 0 Screen.spriteWidth) x y (row + 1) rest

/-- Draws a sprite at `x` and `y`, taken modulo the size of the screen. -/
def blit (s : Screen) (sprite : List UInt8) (x y : Nat) : Guarded Blit :=
  drawRows ⟨s, false⟩ (x % Screen.width) (y % Screen.height) 0 sprite

/-! ### What was drawn -/

/-- On the way from one drawing to another, the pixels of `marks` were turned over, and a collision
was noted if one of them was lit. -/
structure Drawn (marks : Nat → Nat → Bool) (b b' : Blit) : Prop where
  pixel_eq : ∀ px py, b'.screen.pixel px py = (b.screen.pixel px py ^^ marks px py)
  collided_iff : b'.collided = true ↔
    b.collided = true ∨ ∃ px py, b.screen.pixel px py = true ∧ marks px py = true

variable {marks first second : Nat → Nat → Bool} {b mid b' : Blit}

/-- Nothing was drawn. -/
theorem Drawn.refl (b : Blit) (h : ∀ px py, marks px py = false) : Drawn marks b b where
  pixel_eq px py := by rw [h, Bool.xor_false]
  collided_iff := by
    refine (or_iff_left ?_).symm
    rintro ⟨px, py, -, hmark⟩
    exact Bool.false_ne_true ((h px py).symm.trans hmark)

/-- Drawings that have no pixel in common make one drawing. -/
theorem Drawn.trans (hfirst : Drawn first b mid) (hsecond : Drawn second mid b')
    (hmarks : ∀ px py, marks px py = (first px py || second px py))
    (hapart : ∀ px py, second px py = true → first px py = false) : Drawn marks b b' where
  pixel_eq px py := by
    rw [hsecond.pixel_eq, hfirst.pixel_eq, hmarks, Bool.xor_assoc]
    congr 1
    cases h : second px py with
    | false => rw [Bool.xor_false, Bool.or_false]
    | true => rw [hapart px py h, Bool.false_xor, Bool.false_or]
  collided_iff := by
    rw [hsecond.collided_iff, hfirst.collided_iff, or_assoc]
    refine or_congr_right ?_
    -- Where the second drawing has a pixel, the first one has left the screen as it was.
    have hlit (px py : Nat) (h : second px py = true) :
        mid.screen.pixel px py = b.screen.pixel px py := by
      rw [hfirst.pixel_eq, hapart px py h, Bool.xor_false]
    constructor
    · rintro (⟨px, py, hpixel, hmark⟩ | ⟨px, py, hpixel, hmark⟩)
      · exact ⟨px, py, hpixel, by rw [hmarks, hmark, Bool.true_or]⟩
      · exact ⟨px, py, hlit px py hmark ▸ hpixel, by rw [hmarks, hmark, Bool.or_true]⟩
    · rintro ⟨px, py, hpixel, hmark⟩
      rw [hmarks, Bool.or_eq_true] at hmark
      rcases hmark with hmark | hmark
      · exact .inl ⟨px, py, hpixel, hmark⟩
      · exact .inr ⟨px, py, (hlit px py hmark).trans hpixel, hmark⟩

/-- A drawing is determined by the pixels that it turned over. -/
theorem Drawn.unique (h : Drawn marks b mid) (h' : Drawn marks b b') : mid = b' := by
  refine Blit.ext (Screen.ext_pixel fun px py => ?_) (Bool.eq_iff_iff.mpr ?_)
  · rw [h.pixel_eq, h'.pixel_eq]
  · rw [h.collided_iff, h'.collided_iff]

/-! ### Rows -/

/-- The bit of a byte that is shifted to the last place. -/
theorem shiftRight_and_one (byte : UInt8) {k : Nat} (h : k < 8) :
    (byte >>> UInt8.ofNat k &&& 1 == 1) = byte.toNat.testBit k := by
  have hk : (UInt8.ofNat k).toNat % 8 = k := by
    rw [UInt8.toNat_ofNat']
    omega
  rw [Bool.eq_iff_iff, beq_iff_eq, ← UInt8.toNat_inj, UInt8.toNat_and, UInt8.toNat_shiftRight, hk,
    UInt8.toNat_one, Nat.and_one_is_mod, Nat.shiftRight_eq_div_pow,
    Nat.testBit_eq_decide_div_mod_eq, decide_eq_true_iff]

/-- A word with one bit turned over. -/
theorem getMsbD_xor_twoPow (row : BitVec 64) {px : Nat} (hpx : px < 64) (k : Nat) :
    (row ^^^ BitVec.twoPow 64 (63 - px)).getMsbD k = (row.getMsbD k ^^ decide (k = px)) := by
  rw [BitVec.getMsbD_xor, BitVec.getMsbD_twoPow, ← Bool.decide_and]
  congr 1
  apply decide_eq_decide.mpr
  omega

/-- One pixel is drawn. -/
theorem drawPixel_drawn (b : Blit) (byte : UInt8) {px py bit : Nat} (hpx : px < 64) (hpy : py < 32)
    (hbit : bit < 8) :
    ∃ b', drawPixel b byte px py bit = .ok b' ∧
      Drawn (fun qx qy => decide (qx = px ∧ qy = py) && byte.toNat.testBit (7 - bit)) b b' := by
  have hrow : b.screen.rows[py]? = some b.screen.rows[py] := Vector.getElem?_eq_getElem hpy
  have hlit : b.screen.rows[py].getMsb? px = some (b.screen.pixel px py) := by
    rw [Screen.pixel_of_lt b.screen px hpy, BitVec.getMsb?, dif_pos hpx]
    simp [BitVec.getMsb, BitVec.getMsbD, BitVec.getLsb, BitVec.getLsbD, hpx]
  rw [drawPixel, difference_of_le (by omega), ok_bind, places_of_lt (by omega), ok_bind,
    found_of_eq hrow, ok_bind, found_of_eq hlit, ok_bind]
  dsimp only
  rw [replace_of_lt _ hpy]
  refine ⟨_, rfl, ?_, ?_⟩
  · intro qx qy
    rw [shiftRight_and_one byte (by omega)]
    by_cases hqy : qy = py
    · subst hqy
      have hbefore := Screen.pixel_of_lt b.screen qx hpy
      rw [Screen.pixel_of_lt _ qx hpy, Vector.getElem_set_self, hbefore]
      cases byte.toNat.testBit (7 - bit) with
      | false => simp
      | true => simp [getMsbD_xor_twoPow _ hpx]
    · have hkept : ∀ row, (b.screen.rows.set py row hpy)[qy]? = b.screen.rows[qy]? :=
        fun row => Vector.getElem?_set_ne hpy (Ne.symm hqy)
      simp [Screen.pixel, hkept, hqy]
  · rw [shiftRight_and_one byte (by omega), Bool.or_eq_true]
    refine or_congr_right ?_
    constructor
    · intro h
      obtain ⟨hset, hpixel⟩ := Bool.and_eq_true_iff.mp h
      exact ⟨px, py, hpixel, by simp [hset]⟩
    · rintro ⟨qx, qy, hpixel, hmark⟩
      rw [Bool.and_eq_true, decide_eq_true_iff] at hmark
      obtain ⟨⟨rfl, rfl⟩, hset⟩ := hmark
      rw [hset, hpixel]
      rfl

/-- The pixels of a sprite byte from a bit on, with its leftmost bit in column `x` of row `y`. -/
def rowMarks (byte : UInt8) (x y bit px py : Nat) : Bool :=
  decide (py = y ∧ x + bit ≤ px ∧ px < x + 8 ∧ px < 64) && byte.toNat.testBit (7 - (px - x))

/-- A row is drawn from a bit on. -/
theorem drawRow_drawn (b : Blit) (byte : UInt8) {x py bit n : Nat} (hx : x < 64) (hpy : py < 32)
    (hn : bit + n = 8) :
    ∃ b', drawRow b byte x py bit n = .ok b' ∧ Drawn (rowMarks byte x py bit) b b' := by
  induction n generalizing b bit with
  | zero =>
    refine ⟨b, rfl, Drawn.refl b fun px qy => ?_⟩
    rw [rowMarks, decide_eq_false (by omega), Bool.false_and]
  | succ n ih =>
    rw [drawRow, sum_of_lt (by omega), ok_bind]
    by_cases hedge : Screen.width ≤ x + bit
    · -- The row has reached the right edge.
      have hpast : 64 ≤ x + bit := hedge
      refine ⟨b, if_pos hedge, Drawn.refl b fun px qy => ?_⟩
      rw [rowMarks, decide_eq_false (by omega), Bool.false_and]
    · have hpx : x + bit < 64 := Nat.lt_of_not_le hedge
      obtain ⟨mid, hmid, hfirst⟩ := drawPixel_drawn b byte hpx hpy (show bit < 8 by omega)
      obtain ⟨b', hb', hrest⟩ := ih mid (show bit + 1 + n = 8 by omega)
      refine ⟨b', ?_, hfirst.trans hrest ?_ ?_⟩
      · rw [if_neg hedge, hmid, ok_bind, hb']
      · intro px qy
        rw [rowMarks, rowMarks]
        by_cases hhere : px = x + bit
        · subst hhere
          rw [show x + bit - x = bit by omega,
            decide_eq_false (p := qy = py ∧ x + (bit + 1) ≤ x + bit ∧ _) (by omega),
            Bool.false_and, Bool.or_false]
          congr 1
          apply decide_eq_decide.mpr
          omega
        · rw [decide_eq_false (p := px = x + bit ∧ qy = py) (fun h => hhere h.1), Bool.false_and,
            Bool.false_or]
          congr 1
          apply decide_eq_decide.mpr
          omega
      · intro px qy hmark
        rw [rowMarks, Bool.and_eq_true, decide_eq_true_iff] at hmark
        rw [decide_eq_false (by omega), Bool.false_and]

/-! ### Sprites -/

/-- The pixels of a sprite whose upper left corner is at `x` and `y` on the screen. -/
def spriteMarks (sprite : List UInt8) (x y px py : Nat) : Bool :=
  decide (x ≤ px ∧ px < x + 8 ∧ px < 64 ∧ y ≤ py ∧ py < 32) &&
    match sprite[py - y]? with
    | some byte => byte.toNat.testBit (7 - (px - x))
    | none => false

/-- What a sprite marks lies on the screen. -/
theorem lt_of_spriteMarks {sprite : List UInt8} {x y px py : Nat}
    (h : spriteMarks sprite x y px py = true) : px < 64 ∧ py < 32 := by
  rw [spriteMarks, Bool.and_eq_true, decide_eq_true_iff] at h
  omega

/-- The pixels of a sprite are those of its first row and those of the rest below. -/
theorem spriteMarks_cons (byte : UInt8) (rest : List UInt8) (x px py : Nat) {y : Nat}
    (hy : y < 32) :
    spriteMarks (byte :: rest) x y px py
      = (rowMarks byte x y 0 px py || spriteMarks rest x (y + 1) px py) := by
  unfold spriteMarks rowMarks
  rcases Nat.lt_trichotomy py y with h | rfl | h
  · rw [decide_eq_false (by omega), decide_eq_false (by omega), decide_eq_false (by omega)]
    rfl
  · rw [Nat.sub_self, List.getElem?_cons_zero,
      decide_eq_false (p := _ ∧ _ ∧ _ ∧ py + 1 ≤ py ∧ _) (by omega), Bool.false_and, Bool.or_false]
    congr 1
    apply decide_eq_decide.mpr
    omega
  · rw [show py - y = py - (y + 1) + 1 by omega, List.getElem?_cons_succ,
      decide_eq_false (p := py = y ∧ _) (by omega), Bool.false_and, Bool.false_or]
    congr 1
    apply decide_eq_decide.mpr
    omega

/-- A sprite is drawn from a row on. -/
theorem drawRows_drawn (b : Blit) (sprite : List UInt8) {x y row : Nat} (hx : x < 64)
    (hrow : y + row ≤ 32) :
    ∃ b', drawRows b x y row sprite = .ok b' ∧ Drawn (spriteMarks sprite x (y + row)) b b' := by
  induction sprite generalizing b row with
  | nil =>
    refine ⟨b, rfl, Drawn.refl b fun px py => ?_⟩
    rw [spriteMarks, List.getElem?_nil, Bool.and_false]
  | cons byte rest ih =>
    rw [drawRows, sum_of_lt (by omega), ok_bind]
    by_cases hedge : Screen.height ≤ y + row
    · -- The sprite has reached the lower edge.
      have hpast : 32 ≤ y + row := hedge
      refine ⟨b, if_pos hedge, Drawn.refl b fun px py => ?_⟩
      rw [spriteMarks, decide_eq_false (by omega), Bool.false_and]
    · have hpy : y + row < 32 := Nat.lt_of_not_le hedge
      obtain ⟨mid, hmid, hfirst⟩ := drawRow_drawn b byte hx hpy (show 0 + 8 = 8 from rfl)
      obtain ⟨b', hb', hrest⟩ := ih mid (show y + (row + 1) ≤ 32 by omega)
      refine ⟨b', ?_, hfirst.trans hrest (fun px py => spriteMarks_cons byte rest x px py hpy) ?_⟩
      · rw [if_neg hedge]
        show (drawRow b byte x (y + row) 0 8 >>= _) = _
        rw [hmid, ok_bind, hb']
      · intro px py hmark
        rw [spriteMarks, Bool.and_eq_true, decide_eq_true_iff] at hmark
        rw [rowMarks, decide_eq_false (by omega), Bool.false_and]

/-! ### Pictures -/

/-- Drawing the picture of a sprite turns over the pixels of the sprite, and collides where one of
them is lit. -/
theorem drawn_draw (s : Screen) (sprite : List UInt8) (x y : Nat) :
    Drawn (spriteMarks sprite (x % 64) (y % 32)) ⟨s, false⟩
      ⟨s.draw sprite x y, s.collides sprite x y⟩ where
  pixel_eq px py := s.pixel_draw ⟨sprite, x, y⟩ px py
  collided_iff := (s.collides_iff ⟨sprite, x, y⟩).trans (or_iff_right Bool.false_ne_true).symm

/-- Drawing pixel by pixel does not trap, and it is drawing the picture. -/
theorem blit_eq (s : Screen) (sprite : List UInt8) (x y : Nat) :
    blit s sprite x y = .ok ⟨s.draw sprite x y, s.collides sprite x y⟩ := by
  have htop : y % 32 + 0 ≤ 32 := Nat.le_of_lt (Nat.mod_lt y (by decide))
  obtain ⟨b', hb', hdrawn⟩ :=
    drawRows_drawn ⟨s, false⟩ sprite (Nat.mod_lt x (show 0 < 64 by decide)) htop
  rw [← hdrawn.unique (drawn_draw s sprite x y)]
  exact hb'

end Guarded

namespace Screen

/-- Drawing is the clipped exclusive or, pixel for pixel. On any screen, for a sprite of any height
and at any place, a pixel within the eight columns and the rows of the sprite, counted from its
corner modulo the size of the screen, is turned over if the sprite has its bit set there. Every
other pixel is left as it was: nothing wraps around an edge, and what lies past one is not drawn.
The drawing collides if and only if one of the pixels that it turned over was lit. Drawing one
pixel after the other, up to the edges, comes to the same. -/
theorem draw_is_clipped_xor (s : Screen) (sprite : List UInt8) (x y : Nat) :
    let left := x % 64
    let top := y % 32
    let within := fun px py => (left ≤ px ∧ px < left + 8) ∧ top ≤ py ∧ py < top + sprite.length
    let bit := fun px py => (sprite.getD (py - top) 0).toNat.testBit (7 - (px - left))
    (∀ (px : Fin 64) (py : Fin 32), (s.draw sprite x y).pixel px py
      = if within px py then s.pixel px py ^^ bit px py else s.pixel px py) ∧
    (s.collides sprite x y = true ↔
      ∃ (px : Fin 64) (py : Fin 32),
        within px py ∧ bit px py = true ∧ s.pixel px py = true) ∧
    Guarded.blit s sprite x y = .ok ⟨s.draw sprite x y, s.collides sprite x y⟩ := by
  intro left top within bit
  have hdrawn := Guarded.drawn_draw s sprite x y
  have hmarks (px : Fin 64) (py : Fin 32) :
      Guarded.spriteMarks sprite left top px py = (decide (within px py) && bit px py) := by
    have hpx := px.isLt
    have hpy := py.isLt
    simp only [Guarded.spriteMarks, within, bit]
    by_cases hrow : py.val - top < sprite.length
    · rw [List.getD_eq_getElem?_getD, List.getElem?_eq_getElem hrow, Option.getD_some]
      congr 1
      apply decide_eq_decide.mpr
      omega
    · rw [List.getElem?_eq_none (Nat.le_of_not_lt hrow), Bool.and_false,
        decide_eq_false (p := _ ∧ top ≤ py.val ∧ _) (by omega), Bool.false_and]
  refine ⟨?_, ?_, Guarded.blit_eq s sprite x y⟩
  · intro px py
    rw [hdrawn.pixel_eq, hmarks]
    by_cases h : within px py
    · rw [if_pos h, decide_eq_true h, Bool.true_and]
    · rw [if_neg h, decide_eq_false h, Bool.false_and, Bool.xor_false]
  · rw [hdrawn.collided_iff, or_iff_right Bool.false_ne_true]
    constructor
    · rintro ⟨px, py, hlit, hmark⟩
      obtain ⟨hpx, hpy⟩ := Guarded.lt_of_spriteMarks hmark
      have hhere := (hmarks ⟨px, hpx⟩ ⟨py, hpy⟩).symm.trans hmark
      rw [Bool.and_eq_true, decide_eq_true_iff] at hhere
      exact ⟨⟨px, hpx⟩, ⟨py, hpy⟩, hhere.1, hhere.2, hlit⟩
    · rintro ⟨px, py, hwithin, hbit, hlit⟩
      refine ⟨px, py, hlit, ?_⟩
      rw [hmarks, hbit, decide_eq_true hwithin]
      rfl

end Screen

end Chip8
