import Chip8.Screen
import Mathlib.Data.List.Perm.Basic
import Mathlib.Tactic.Common

/-!
# `Chip8.Proofs.Drawing`: many sprites, in any order

Drawing a sprite turns over the pixels that the sprite has set on the screen.
`Drawing.covers` says which these are, from the bytes of the sprite and the place of its
corner. So after any number of drawings, a pixel was turned over once for each of them that
covers it (`pixel_drawAll`). A screen is given by its pixels (`ext_pixel`), and the count does
not depend on the order. `drawing_commutes` collects what follows.

Collisions do depend on the order. For a sprite that is drawn twice in a row,
`collides_draw_iff` says when the second drawing collides.
-/

set_option autoImplicit false

namespace Chip8

namespace Screen

/-- A sprite to be drawn, and the place of its upper left corner. -/
structure Drawing where
  sprite : List UInt8
  x : Nat
  y : Nat
  deriving DecidableEq

/-- Whether the sprite has the pixel in column `px` and row `py` set, on the screen. The most
significant bit of a byte is the leftmost of eight pixels. -/
def Drawing.covers (d : Drawing) (px py : Nat) : Bool :=
  let left := d.x % 64
  let top := d.y % 32
  decide (left ≤ px ∧ px < left + 8 ∧ px < 64 ∧ top ≤ py ∧ py < 32) &&
    match d.sprite[py - top]? with
    | some byte => byte.toNat.testBit (7 - (px - left))
    | none => false

/-- The screen after a list of drawings, the first one first. -/
def drawAll (s : Screen) (drawings : List Drawing) : Screen :=
  drawings.foldl (fun s d => s.draw d.sprite d.x d.y) s

/-! ### Pixels -/

/-- A screen is given by its pixels. -/
theorem ext_pixel {s t : Screen} (h : ∀ x y, s.pixel x y = t.pixel x y) : s = t := by
  refine Screen.ext (Vector.ext fun y hy => BitVec.eq_of_getMsbD_eq fun x _ => ?_)
  have hpixel := h x y
  rw [pixel_of_lt s x hy, pixel_of_lt t x hy] at hpixel
  exact hpixel

/-- A bit of a byte counted from the left, in terms of the byte's number. -/
theorem getMsbD_toBitVec (byte : UInt8) (k : Nat) :
    byte.toBitVec.getMsbD k = (decide (k < 8) && byte.toNat.testBit (7 - k)) := by
  show (decide (k < 8) && byte.toBitVec.getLsbD (8 - 1 - k)) = _
  rw [BitVec.getLsbD]
  rfl

/-- The image of a drawing is lit where the drawing covers. -/
theorem pixel_image_eq_covers (d : Drawing) (px py : Nat) :
    (image d.sprite d.x d.y).pixel px py = d.covers px py := by
  rw [pixel_image, Drawing.covers]
  cases d.sprite[py - d.y % 32]? with
  | none => simp only [Bool.and_false]
  | some byte =>
    simp only [getMsbD_toBitVec, ← Bool.and_assoc, ← Bool.decide_and]
    congr 1
    apply decide_eq_decide.mpr
    omega

/-- A drawing flips the pixels that it covers. -/
theorem pixel_draw (s : Screen) (d : Drawing) (px py : Nat) :
    (s.draw d.sprite d.x d.y).pixel px py = (s.pixel px py ^^ d.covers px py) := by
  rw [draw, pixel_xor, pixel_image_eq_covers]

/-- A drawing collides where it covers a lit pixel. -/
theorem collides_iff (s : Screen) (d : Drawing) :
    s.collides d.sprite d.x d.y = true ↔
      ∃ px py, s.pixel px py = true ∧ d.covers px py = true := by
  rw [collides, overlaps_iff]
  simp only [pixel_image_eq_covers]

/-! ### Lists of drawings -/

/-- The first of several drawings is drawn first. -/
theorem drawAll_cons (s : Screen) (d : Drawing) (drawings : List Drawing) :
    s.drawAll (d :: drawings) = (s.draw d.sprite d.x d.y).drawAll drawings :=
  List.foldl_cons ..

/-- A pixel is turned over once for each drawing that covers it. -/
theorem pixel_drawAll (s : Screen) (drawings : List Drawing) (px py : Nat) :
    (s.drawAll drawings).pixel px py
      = (s.pixel px py ^^ decide (drawings.countP (·.covers px py) % 2 = 1)) := by
  induction drawings generalizing s with
  | nil =>
    show s.pixel px py = (s.pixel px py ^^ false)
    rw [Bool.xor_false]
  | cons d drawings ih =>
    rw [drawAll_cons, ih, pixel_draw, Bool.xor_assoc, List.countP_cons]
    congr 1
    -- One more drawing changes the parity if it covers the pixel.
    cases d.covers px py with
    | false => rw [Bool.false_xor]; rfl
    | true =>
      rw [Bool.true_xor, if_pos rfl, ← decide_not]
      apply decide_eq_decide.mpr
      omega

/-- Drawings give the same screen if each pixel is covered by as many of both, up to an even
number. -/
theorem drawAll_congr (s : Screen) {first second : List Drawing}
    (h : ∀ px py, first.countP (·.covers px py) % 2 = second.countP (·.covers px py) % 2) :
    s.drawAll first = s.drawAll second := by
  apply ext_pixel
  intro px py
  rw [pixel_drawAll, pixel_drawAll, h]

/-- The second of two equal drawings in a row collides if and only if the first one turned a
pixel on. -/
theorem collides_draw_iff (s : Screen) (d : Drawing) :
    (s.draw d.sprite d.x d.y).collides d.sprite d.x d.y = true ↔
      ∃ px py, s.pixel px py = false ∧ (s.draw d.sprite d.x d.y).pixel px py = true := by
  rw [collides_iff]
  simp only [pixel_draw]
  constructor
  · rintro ⟨px, py, hlit, hcovers⟩
    refine ⟨px, py, ?_, hlit⟩
    rw [hcovers, Bool.xor_true, Bool.not_eq_true'] at hlit
    exact hlit
  · rintro ⟨px, py, hdark, hlit⟩
    refine ⟨px, py, hlit, ?_⟩
    rw [hdark, Bool.false_xor] at hlit
    exact hlit

/-- Drawings commute and cancel. Drawings in another order give the same screen, on which a
pixel is lit if it was lit before and an even number of the drawings cover it, or if it was not
and an odd number do. Two equal drawings have no effect, whatever is drawn before, between and
after them. Right after one another, the second of them collides if and only if the first one
turned a pixel on. -/
theorem drawing_commutes (s : Screen) :
    (∀ first second : List Drawing, first.Perm second → s.drawAll first = s.drawAll second) ∧
    (∀ (drawings : List Drawing) (px py : Nat), (s.drawAll drawings).pixel px py
      = (s.pixel px py ^^ decide (drawings.countP (·.covers px py) % 2 = 1))) ∧
    (∀ (before between behind : List Drawing) (d : Drawing),
      s.drawAll (before ++ d :: between ++ d :: behind)
        = s.drawAll (before ++ between ++ behind)) ∧
    (∀ d : Drawing, (s.draw d.sprite d.x d.y).collides d.sprite d.x d.y = true ↔
      ∃ px py, s.pixel px py = false ∧ (s.draw d.sprite d.x d.y).pixel px py = true) := by
  refine ⟨?_, s.pixel_drawAll, ?_, s.collides_draw_iff⟩
  · intro first second hperm
    apply drawAll_congr
    intro px py
    rw [hperm.countP_eq]
  · intro before between behind d
    apply drawAll_congr
    intro px py
    simp only [List.countP_append, List.countP_cons]
    split <;> omega

/-- A sprite in the last corner, of which two pixels are on the screen. -/
def inCorner : Drawing := ⟨[0xFF, 0xFF], 62, 31⟩

/-- A sprite whose corner wraps around both edges, of which four pixels are on the screen. -/
def wrapped : Drawing := ⟨[0xFF], 124, 63⟩

/-- Two sprites that overlap in the last row give the same screen in both orders, with the pixels
that both cover turned off again. -/
theorem drawing_commutes_inCorner :
    [inCorner, wrapped].Perm [wrapped, inCorner] ∧
    blank.drawAll [inCorner, wrapped] = blank.drawAll [wrapped, inCorner] ∧
    (blank.drawAll [inCorner, wrapped]).pixel 61 31 = true ∧
    (blank.drawAll [inCorner, wrapped]).pixel 62 31 = false ∧
    (blank.draw inCorner.sprite 62 31).collides inCorner.sprite 62 31 = true := by
  have hperm : [inCorner, wrapped].Perm [wrapped, inCorner] := .swap wrapped inCorner []
  obtain ⟨horder, hpixel, -, hcollides⟩ := drawing_commutes blank
  refine ⟨hperm, horder _ _ hperm, ?_, ?_, (hcollides inCorner).mpr ⟨62, 31, ?_⟩⟩
  · rw [hpixel]
    decide
  · rw [hpixel]
    decide
  · decide +kernel

end Screen

end Chip8
