import Chip8.Proofs.Drawing
import Mathlib.Data.List.Nodup
import Mathlib.Tactic.Common

/-!
# `Chip8.Proofs.Lit`: how many pixels a drawing turns on and off

A drawing turns over the pixels that it covers, so the lit ones of these go dark and the dark ones
light up. Counted over the whole screen this is one equation (`lit_draw_add`): `Drawing.visible`
pixels are covered, `Drawing.erased` of them were lit, and each of the latter is missing twice from
the sum of what was lit before and what is covered. The collision says whether any was erased.

The covered pixels can also be counted in the sprite (`visible_eq_countP_bits`). Every set bit that
does not fall off the screen has a pixel of its own, and nothing else covers a pixel.
-/

set_option autoImplicit false

namespace Chip8

namespace Screen

/-! ### Grids -/

/-- The columns and rows of a grid, row by row. -/
def grid (columns rows : Nat) : List (Nat × Nat) :=
  (List.range rows).flatMap fun y => (List.range columns).map fun x => (x, y)

/-- The positions of the screen are a grid of 64 columns and 32 rows. -/
theorem positions_eq_grid : positions = grid 64 32 := rfl

/-- A position is on a grid if its column and its row are. -/
theorem mem_grid {columns rows : Nat} {p : Nat × Nat} :
    p ∈ grid columns rows ↔ p.1 < columns ∧ p.2 < rows := by
  simp only [grid, List.mem_flatMap, List.mem_map, List.mem_range]
  constructor
  · rintro ⟨y, hy, x, hx, rfl⟩
    exact ⟨hx, hy⟩
  · rintro ⟨hx, hy⟩
    exact ⟨p.2, hy, p.1, hx, rfl⟩

/-- A grid has as many positions as its columns times its rows. -/
theorem length_grid (columns rows : Nat) : (grid columns rows).length = rows * columns := by
  simp [grid, List.length_flatMap]

/-- A grid names no position twice. -/
theorem nodup_grid (columns rows : Nat) : (grid columns rows).Nodup := by
  refine List.nodup_flatMap.mpr ⟨fun y _ => ?_, ?_⟩
  · exact List.nodup_range.map fun x x' h => congrArg Prod.fst h
  · refine List.nodup_range.imp fun {y y'} hne => ?_
    -- Two rows have no pixel in common.
    intro p hp hp'
    obtain ⟨x, -, rfl⟩ := List.mem_map.mp hp
    obtain ⟨x', -, h⟩ := List.mem_map.mp hp'
    exact hne (congrArg Prod.snd h).symm

/-- A screen has 2048 pixels, so no more can be lit. -/
theorem lit_le (s : Screen) : s.lit ≤ 2048 := by
  have hall : s.lit ≤ positions.length := List.countP_le_length
  rw [positions_eq_grid, length_grid] at hall
  exact hall

/-! ### Covered pixels -/

/-- How many pixels of the screen the drawing covers. -/
def Drawing.visible (d : Drawing) : Nat := positions.countP fun p => d.covers p.1 p.2

/-- How many of the covered pixels are lit. -/
def Drawing.erased (d : Drawing) (s : Screen) : Nat :=
  positions.countP fun p => s.pixel p.1 p.2 && d.covers p.1 p.2

/-- What is in exactly one of two sets is counted once in the sum of both, and what is in both is
counted twice. -/
theorem countP_xor_add {α : Type} (l : List α) (p q : α → Bool) :
    l.countP (fun a => p a ^^ q a) + 2 * l.countP (fun a => p a && q a)
      = l.countP p + l.countP q := by
  induction l with
  | nil => rfl
  | cons a l ih =>
    simp only [List.countP_cons]
    -- The element is in neither of the two sets, in one of them, or in both.
    cases p a <;> cases q a <;> simp <;> omega

/-- The lit pixels before and after a drawing. -/
theorem lit_draw_add (s : Screen) (d : Drawing) :
    (s.draw d.sprite d.x d.y).lit + 2 * d.erased s = s.lit + d.visible := by
  have hpixel : (s.draw d.sprite d.x d.y).lit
      = positions.countP fun p => s.pixel p.1 p.2 ^^ d.covers p.1 p.2 := by
    simp only [lit, pixel_draw]
  rw [hpixel]
  exact countP_xor_add positions _ _

/-- A pixel that is lit is on the screen. -/
theorem mem_positions_of_pixel {s : Screen} {x y : Nat} (h : s.pixel x y = true) :
    (x, y) ∈ positions := by
  rw [positions_eq_grid, mem_grid]
  by_cases hy : y < 32
  · rw [pixel_of_lt s x hy] at h
    exact ⟨BitVec.lt_of_getMsbD h, hy⟩
  · simp [pixel, hy] at h

/-- A drawing collides if it erases at least one pixel. -/
theorem collides_iff_erased_pos (s : Screen) (d : Drawing) :
    s.collides d.sprite d.x d.y = true ↔ 0 < d.erased s := by
  rw [collides_iff, Drawing.erased, List.countP_pos_iff]
  simp only [Bool.and_eq_true]
  constructor
  · rintro ⟨x, y, hlit, hcovers⟩
    exact ⟨(x, y), mem_positions_of_pixel hlit, hlit, hcovers⟩
  · rintro ⟨p, -, hlit, hcovers⟩
    exact ⟨p.1, p.2, hlit, hcovers⟩

/-- No pixel of the blank screen is lit. -/
theorem pixel_blank (x y : Nat) : blank.pixel x y = false := by
  by_cases hy : y < 32
  · simp [pixel, blank, hy]
  · simp [pixel, hy]

/-- The blank screen has no lit pixel to count. -/
theorem lit_blank : blank.lit = 0 := by
  simp [lit, pixel_blank]

/-- On the blank screen there is nothing to erase. -/
theorem erased_blank (d : Drawing) : d.erased blank = 0 := by
  simp [Drawing.erased, pixel_blank]

/-! ### The bits of a sprite -/

/-- The columns and rows of the sprite itself. -/
def Drawing.bits (d : Drawing) : List (Nat × Nat) := grid 8 d.sprite.length

/-- Whether the sprite has a bit set. The most significant bit of a byte is in column 0. -/
def Drawing.isSet (d : Drawing) (bit : Nat × Nat) : Bool :=
  (d.sprite[bit.2]?.getD 0).toNat.testBit (7 - bit.1)

/-- Where a bit of the sprite is drawn, if it is on the screen. -/
def Drawing.place (d : Drawing) (bit : Nat × Nat) : Nat × Nat :=
  (d.x % 64 + bit.1, d.y % 32 + bit.2)

/-- Whether a bit of the sprite is drawn on the screen and not past an edge. -/
def Drawing.onScreen (d : Drawing) (bit : Nat × Nat) : Bool :=
  decide ((d.place bit).1 < 64 ∧ (d.place bit).2 < 32)

/-- A bit of a sprite is on the screen if it goes past neither the right nor the lower edge. -/
theorem Drawing.onScreen_iff (d : Drawing) (bit : Nat × Nat) :
    d.onScreen bit = true ↔ d.x % 64 + bit.1 < 64 ∧ d.y % 32 + bit.2 < 32 :=
  decide_eq_true_iff

/-- Different bits of a sprite are drawn at different places. -/
theorem Drawing.place_injective (d : Drawing) : Function.Injective d.place := by
  rintro ⟨x, y⟩ ⟨x', y'⟩ h
  simp only [place, Prod.mk.injEq] at h ⊢
  omega

/-- A pixel is covered if and only if a set bit is drawn there. -/
theorem Drawing.covers_iff (d : Drawing) (p : Nat × Nat) :
    d.covers p.1 p.2 = true ↔
      ∃ bit ∈ d.bits, (d.isSet bit && d.onScreen bit) = true ∧ d.place bit = p := by
  obtain ⟨px, py⟩ := p
  simp only [covers, bits, mem_grid, isSet, onScreen_iff, place, Bool.and_eq_true,
    decide_eq_true_iff, Prod.mk.injEq]
  constructor
  · rintro ⟨hwithin, hset⟩
    cases hbyte : d.sprite[py - d.y % 32]? with
    | none =>
      rw [hbyte] at hset
      exact absurd hset Bool.false_ne_true
    | some byte =>
      rw [hbyte] at hset
      -- The pixel comes from the bit as far right of and below the corner as it is itself.
      obtain ⟨hrow, -⟩ := List.getElem?_eq_some_iff.mp hbyte
      have hplace : d.x % 64 + (px - d.x % 64) = px ∧ d.y % 32 + (py - d.y % 32) = py := by omega
      refine ⟨(px - d.x % 64, py - d.y % 32), ⟨?_, hrow⟩, ⟨?_, ?_⟩, hplace⟩
      · show px - d.x % 64 < 8
        omega
      · rw [hbyte]
        exact hset
      · show d.x % 64 + (px - d.x % 64) < 64 ∧ d.y % 32 + (py - d.y % 32) < 32
        omega
  · rintro ⟨⟨column, row⟩, ⟨hcolumn, hrow⟩, ⟨hset, hshown⟩, rfl, rfl⟩
    dsimp only at hcolumn hrow hset hshown ⊢
    refine ⟨by omega, ?_⟩
    rw [List.getElem?_eq_getElem hrow] at hset
    rw [Nat.add_sub_cancel_left, Nat.add_sub_cancel_left, List.getElem?_eq_getElem hrow]
    exact hset

/-- As many pixels are covered as bits of the sprite are set and not cut off. -/
theorem Drawing.visible_eq_countP_bits (d : Drawing) :
    d.visible = d.bits.countP fun bit => d.isSet bit && d.onScreen bit := by
  -- Both lists have no element twice, so they are the same up to the order.
  have hpixels : (positions.filter fun p => d.covers p.1 p.2).Nodup :=
    (nodup_grid 64 32).filter _
  have hbits : ((d.bits.filter fun bit => d.isSet bit && d.onScreen bit).map d.place).Nodup :=
    ((nodup_grid 8 d.sprite.length).filter _).map d.place_injective
  have hperm : (positions.filter fun p => d.covers p.1 p.2).Perm
      ((d.bits.filter fun bit => d.isSet bit && d.onScreen bit).map d.place) := by
    refine (List.perm_ext_iff_of_nodup hpixels hbits).mpr fun p => ?_
    simp only [List.mem_filter, List.mem_map, and_assoc]
    constructor
    · rintro ⟨-, hcovers⟩
      exact (d.covers_iff p).mp hcovers
    · intro hbit
      have hcovers := (d.covers_iff p).mpr hbit
      -- A set bit is only placed where the screen has a pixel.
      refine ⟨?_, hcovers⟩
      simp only [Drawing.covers, Bool.and_eq_true, decide_eq_true_iff] at hcovers
      rw [positions_eq_grid, mem_grid]
      omega
  rw [Drawing.visible, List.countP_eq_length_filter, List.countP_eq_length_filter,
    hperm.length_eq, List.length_map]

/-! ### The account -/

/-- Drawing accounts for every pixel. On any screen, for a sprite of any height and at any place,
`visible` counts the covered pixels, which is one for each set bit that is not cut off at an edge,
and `erased` counts those of them that were lit. The lit pixels afterwards are those before, with
the former added and the latter taken away twice. The drawing collides if and only if something was
erased, so if and only if fewer pixels are lit than would be without an overlap. On a blank screen
it does not collide and lights what it covers. No screen has more than 2048 lit pixels. -/
theorem drawing_accounts_for_every_pixel (s : Screen) (sprite : List UInt8) (x y : Nat) :
    let d : Drawing := ⟨sprite, x, y⟩
    ((s.draw sprite x y).lit : Int) = s.lit + d.visible - 2 * d.erased s ∧
    (s.collides sprite x y = true ↔ 0 < d.erased s) ∧
    ((s.draw sprite x y).lit = s.lit + d.visible ↔ s.collides sprite x y = false) ∧
    blank.collides sprite x y = false ∧
    (blank.draw sprite x y).lit = d.visible ∧
    s.lit ≤ 2048 ∧
    d.visible = d.bits.countP fun bit => d.isSet bit && d.onScreen bit := by
  intro d
  have hlit : (s.draw sprite x y).lit + 2 * d.erased s = s.lit + d.visible := s.lit_draw_add d
  have hcollides : s.collides sprite x y = true ↔ 0 < d.erased s := s.collides_iff_erased_pos d
  have hblank : (blank.draw sprite x y).lit + 2 * d.erased blank = blank.lit + d.visible :=
    blank.lit_draw_add d
  rw [erased_blank, lit_blank] at hblank
  refine ⟨by omega, hcollides, ?_, ?_, by omega, s.lit_le, d.visible_eq_countP_bits⟩
  · rw [← Bool.not_eq_true, hcollides]
    omega
  · rw [← Bool.not_eq_true, blank.collides_iff_erased_pos d, erased_blank]
    exact Nat.lt_irrefl 0

/-- In the last corner, two of sixteen set bits are on the screen. -/
example :
    let d : Drawing := ⟨[0xFF, 0xFF], 62, 31⟩
    d.bits.countP d.isSet = 16 ∧ d.bits.countP (fun bit => d.isSet bit && d.onScreen bit) = 2 := by
  decide

end Screen

end Chip8
