import Chip8.Numeral

/-!
# `Chip8.Screen`: the picture and how sprites are drawn

The screen has 32 rows of 64 pixels. A row is a word of 64 bits whose most significant
bit is the leftmost pixel.

A sprite is a list of bytes, one for each of its rows, whose most significant bit is
again the leftmost pixel. `Screen.image` is the picture of a sprite alone: its corner
wraps around the edges, and what then lies past the right or the lower edge is cut off.
Drawing is the exclusive or with that picture, and it collides where both are lit.

`pixel_xor`, `pixel_image` and `overlaps_iff` say all this pixel by pixel.
-/

set_option autoImplicit false

namespace Chip8

/-- A picture. -/
@[ext]
structure Screen where
  rows : Vector (BitVec 64) 32
  deriving DecidableEq

namespace Screen

/-- Pixels in a row. -/
def width : Nat := 64

/-- Rows on the screen. -/
def height : Nat := 32

/-- Pixels in a row of a sprite. -/
def spriteWidth : Nat := 8

/-- No pixel is lit. -/
def blank : Screen := ⟨Vector.replicate 32 0#64⟩

/-- Whether the pixel in column `x` and row `y` is lit. There is none past the edges. -/
def pixel (s : Screen) (x y : Nat) : Bool :=
  match s.rows[y]? with
  | some row => row.getMsbD x
  | none => false

/-- The row that a sprite byte fills when its leftmost pixel is in column `x`. -/
def spriteRow (byte : UInt8) (x : Nat) : BitVec 64 := (byte.toBitVec ++ 0#56) >>> x

/-- The picture of a sprite whose upper left corner is at `x` and `y`, taken modulo the size
of the screen: empty rows down to the corner, then the rows of the sprite. -/
def image (sprite : List UInt8) (x y : Nat) : Screen :=
  let rows := List.replicate (y % height) 0#64 ++ sprite.map (spriteRow · (x % width))
  ⟨Vector.ofFn fun row => rows[row.val]?.getD 0#64⟩

/-- The pixels that are lit in one of two pictures and not in the other. -/
def xor (s t : Screen) : Screen := ⟨Vector.zipWith (· ^^^ ·) s.rows t.rows⟩

/-- Whether some pixel is lit in both pictures. -/
def overlaps (s t : Screen) : Bool :=
  (List.finRange 32).any fun row => s.rows[row] &&& t.rows[row] != 0#64

/-- Draws a sprite at `x` and `y`. -/
def draw (s : Screen) (sprite : List UInt8) (x y : Nat) : Screen := s.xor (image sprite x y)

/-- Whether drawing a sprite at `x` and `y` turns a lit pixel off. -/
def collides (s : Screen) (sprite : List UInt8) (x y : Nat) : Bool :=
  s.overlaps (image sprite x y)

/-- The columns and rows of all pixels, row by row. -/
def positions : List (Nat × Nat) :=
  (List.range height).flatMap fun y => (List.range width).map fun x => (x, y)

/-- How many pixels are lit. -/
def lit (s : Screen) : Nat := positions.countP fun p => s.pixel p.1 p.2

/-! ### Pixel by pixel -/

/-- A pixel of one of the rows is a bit of that row, counted from the left. -/
theorem pixel_of_lt (s : Screen) (x : Nat) {y : Nat} (h : y < 32) :
    s.pixel x y = s.rows[y].getMsbD x := by
  simp only [pixel, Vector.getElem?_eq_getElem h]

/-- The pixels of an exclusive or. -/
theorem pixel_xor (s t : Screen) (x y : Nat) :
    (s.xor t).pixel x y = (s.pixel x y ^^ t.pixel x y) := by
  simp only [pixel, xor, Vector.getElem?_zipWith]
  by_cases h : y < 32 <;> simp [h]

/-- A row of a sprite shows the bits of its byte from column `x` on, as far as the row goes. -/
theorem getMsbD_spriteRow (byte : UInt8) (x k : Nat) :
    (spriteRow byte x).getMsbD k
      = (decide (x ≤ k ∧ k < 64) && byte.toBitVec.getMsbD (k - x)) := by
  simp only [spriteRow, BitVec.getMsbD_ushiftRight, BitVec.getMsbD_append]
  by_cases hx : x ≤ k
  · by_cases hk : k < 64
    · by_cases h8 : 8 ≤ k - x <;> simp [hx, hk, h8, Nat.not_lt.2 hx]
    · simp [hk]
  · simp [Nat.lt_of_not_le hx, hx]

/-- The picture of a sprite, pixel by pixel: the bit of the sprite at the distance from the
corner, on the screen and not before the corner. -/
theorem pixel_image (sprite : List UInt8) (x y px py : Nat) :
    (image sprite x y).pixel px py =
      (decide (x % 64 ≤ px ∧ px < 64 ∧ y % 32 ≤ py ∧ py < 32) &&
        match sprite[py - y % 32]? with
        | some byte => byte.toBitVec.getMsbD (px - x % 64)
        | none => false) := by
  simp only [pixel, image, height, width]
  by_cases h : py < 32
  · by_cases hy : py < y % 32
    · simp [h, hy, List.getElem?_append, List.getElem?_replicate, show ¬ y % 32 ≤ py by omega]
    · simp [h, hy, List.getElem?_append, show y % 32 ≤ py by omega]
      cases sprite[py - y % 32]? <;> simp [getMsbD_spriteRow]
  · simp [h]

/-- Two screens overlap if some pixel is lit on both. -/
theorem overlaps_iff (s t : Screen) :
    s.overlaps t = true ↔ ∃ x y, s.pixel x y = true ∧ t.pixel x y = true := by
  simp only [overlaps, List.any_eq_true, List.mem_finRange, true_and, bne_iff_ne,
    Fin.getElem_fin]
  constructor
  · rintro ⟨y, hy⟩
    -- A row that is not zero has a bit that is one.
    have : ∃ x, (s.rows[y.val] &&& t.rows[y.val]).getMsbD x = true := by
      apply Classical.byContradiction
      intro none
      refine hy (BitVec.eq_of_getMsbD_eq fun x _ => ?_)
      rw [BitVec.getMsbD_zero]
      exact Bool.eq_false_iff.2 fun h => none ⟨x, h⟩
    obtain ⟨x, hx⟩ := this
    refine ⟨x, y, ?_⟩
    rw [pixel_of_lt s x y.isLt, pixel_of_lt t x y.isLt]
    simpa [BitVec.getMsbD_and] using hx
  · rintro ⟨x, y, hs, ht⟩
    by_cases hy : y < 32
    · refine ⟨⟨y, hy⟩, fun h => ?_⟩
      have hx := congrArg (·.getMsbD x) h
      rw [pixel_of_lt s x hy] at hs
      rw [pixel_of_lt t x hy] at ht
      simp [BitVec.getMsbD_and, hs, ht] at hx
    · simp [pixel, hy] at hs

/-! ### The picture as text -/

/-- The line of text that shows a row. -/
def line (s : Screen) (y : Nat) : List Char :=
  (List.range width).map fun x => if s.pixel x y then '#' else '.'

/-- The picture as text: a line for each row, with `#` for a lit pixel, ended by a line feed. -/
def text (s : Screen) : String :=
  String.ofList ((List.range height).flatMap fun y => s.line y ++ ['\n'])

/-- A short account of the picture. -/
def summary (s : Screen) : String :=
  "FrameBuffer \x7b lit: " ++ Numeral.decimal s.lit ++ " \x7d"

end Screen

end Chip8
