import Chip8.Proofs.Lit

/-!
# `Chip8.Proofs.Rendering`: the text shows every pixel

The text of a screen is one list of characters, and a pixel has two coordinates. What relates them
is that all lines are equally long: with its newline a line takes 65 characters, so the pixel in
column `x` and row `y` is shown at `65 * y + x` (`getElem?_text`). And since no line has a newline
in it, taking the text apart at the newlines gives the lines back (`splitOn_text`).

The rest follows from the pixels. The lit ones are counted line by line (`count_text`), and a screen
is given by its pixels, so different screens have different texts (`eq_of_text_eq`). The text is
put together from lines that ask for one pixel after the other. Going through the words of the
screen instead, and writing the bits of each from the left, comes to the same (`write_eq_text`).
This is an induction on the rows that are left: each one puts its line behind what was written.

A screen can be drawn with one dot for each of its lit pixels (`drawAll_dots`). So what is said of
every screen is said of no more than those that drawing and clearing lead to.
-/

set_option autoImplicit false

namespace Chip8

namespace Screen

/-! ### Lines -/

/-- The character that shows a pixel. -/
def mark (lit : Bool) : Char := if lit then '#' else '.'

/-- The lines of the text, from the top row on, without their newlines. -/
def lines (s : Screen) : List (List Char) := (List.range height).map s.line

/-- The mark of a pixel is not the end of a line. -/
theorem mark_ne_newline (lit : Bool) : mark lit ≠ '\n' := by
  cases lit <;> decide

/-- A pixel is marked `#` if it is lit. -/
theorem mark_eq_hash_iff (lit : Bool) : mark lit = '#' ↔ lit = true := by
  cases lit <;> decide

/-- A line is the marks of a row's pixels. -/
theorem line_eq (s : Screen) (y : Nat) :
    s.line y = (List.range 64).map fun x => mark (s.pixel x y) := rfl

/-- A line has 64 characters. -/
theorem length_line (s : Screen) (y : Nat) : (s.line y).length = 64 := by
  rw [line_eq, List.length_map, List.length_range]

/-- The character in a column of a line is the mark of the pixel there. -/
theorem getElem?_line (s : Screen) {x : Nat} (y : Nat) (hx : x < 64) :
    (s.line y)[x]? = some (mark (s.pixel x y)) := by
  rw [line_eq, List.getElem?_map, List.getElem?_range hx, Option.map_some]

/-- A line does not end before its last character. -/
theorem newline_notMem_line (s : Screen) (y : Nat) : '\n' ∉ s.line y := by
  rw [line_eq, List.mem_map]
  rintro ⟨x, -, h⟩
  exact mark_ne_newline _ h

/-- The lines are those of the rows, from the top. -/
theorem getElem?_lines (s : Screen) {y : Nat} (hy : y < 32) : s.lines[y]? = some (s.line y) := by
  rw [lines, height, List.getElem?_map, List.getElem?_range hy, Option.map_some]

/-- There are 32 lines of 64 characters. -/
theorem map_length_lines (s : Screen) : s.lines.map List.length = List.replicate 32 64 := by
  rw [lines, List.map_map]
  refine List.eq_replicate_iff.mpr ⟨by simp [height], fun n hn => ?_⟩
  obtain ⟨y, -, rfl⟩ := List.mem_map.mp hn
  exact s.length_line y

/-! ### Places in the text -/

/-- An entry of a list that is put together from parts of the same length. -/
theorem getElem?_flatMap_of_length {α β : Type} {f : α → List β} {k : Nat}
    (hf : ∀ a, (f a).length = k) (parts : List α) (i : Nat) {j : Nat} (hj : j < k) :
    (parts.flatMap f)[k * i + j]? = parts[i]?.bind fun a => (f a)[j]? := by
  induction parts generalizing i with
  | nil => rfl
  | cons a parts ih =>
    rw [List.flatMap_cons]
    cases i with
    | zero =>
      rw [Nat.mul_zero, Nat.zero_add, List.getElem?_append_left (by rw [hf]; exact hj)]
      rfl
    | succ i =>
      -- The first part is skipped with all its entries.
      have hskip : k * (i + 1) + j = (f a).length + (k * i + j) := by
        rw [hf, Nat.mul_succ]
        omega
      rw [hskip, List.getElem?_append_right (Nat.le_add_right _ _), Nat.add_sub_cancel_left, ih,
        List.getElem?_cons_succ]

/-- The text is the lines, each with its end. -/
theorem toList_text (s : Screen) : s.text.toList = s.lines.flatMap (· ++ ['\n']) := by
  rw [text, String.toList_ofList, lines, List.flatMap_map]

/-- The place of a pixel in the text. -/
theorem getElem?_text (s : Screen) {x y : Nat} (hx : x < 64) (hy : y < 32) :
    s.text.toList[65 * y + x]? = some (mark (s.pixel x y)) := by
  have hlength : ∀ row, (s.line row ++ ['\n']).length = 65 := fun row => by
    rw [List.length_append, s.length_line]
    rfl
  rw [text, String.toList_ofList, getElem?_flatMap_of_length hlength _ y (Nat.lt_succ_of_lt hx),
    height, List.getElem?_range hy, Option.bind_some,
    List.getElem?_append_left (by rw [s.length_line]; exact hx), s.getElem?_line y hx]

/-- Lines that end in newlines are lines with newlines between them, and nothing after the last. -/
theorem flatMap_newline (lines : List (List Char)) :
    lines.flatMap (· ++ ['\n']) = ['\n'].intercalate (lines ++ [[]]) := by
  induction lines with
  | nil => rfl
  | cons line lines ih =>
    -- There is a next line, if only the empty one behind the last newline.
    obtain ⟨next, rest, hnext⟩ : ∃ next rest, lines ++ [[]] = next :: rest :=
      List.exists_cons_of_ne_nil (by simp)
    rw [List.flatMap_cons, ih, List.cons_append, hnext, List.intercalate_cons_cons]

/-- The text taken apart at its newlines. -/
theorem splitOn_text (s : Screen) : s.text.toList.splitOn '\n' = s.lines ++ [[]] := by
  have hlines : ∀ line ∈ s.lines ++ [[]], '\n' ∉ line := by
    intro line hline
    rcases List.mem_append.mp hline with hline | hline
    · obtain ⟨y, -, rfl⟩ := List.mem_map.mp hline
      exact s.newline_notMem_line y
    · rw [List.mem_singleton.mp hline]
      exact List.not_mem_nil
  rw [toList_text, flatMap_newline, List.splitOn_intercalate '\n' hlines (by simp)]

/-! ### Counting and comparing -/

/-- A line has a `#` for each lit pixel of its row. -/
theorem count_line (s : Screen) (y : Nat) :
    (s.line y).count '#' = (List.range 64).countP fun x => s.pixel x y := by
  rw [line_eq, List.count, List.countP_map]
  refine List.countP_congr fun x _ => ?_
  rw [Function.comp_apply, beq_iff_eq, mark_eq_hash_iff]

/-- The text has a `#` for each lit pixel: both are counted row by row. -/
theorem count_text (s : Screen) : s.text.toList.count '#' = s.lit := by
  rw [text, String.toList_ofList, List.count_flatMap, lit, positions_eq_grid, grid,
    List.countP_flatMap]
  refine congrArg List.sum (List.map_congr_left fun y _ => ?_)
  -- The newline at the end of the line is no `#`.
  calc (s.line y ++ ['\n']).count '#'
    _ = (s.line y).count '#' := by rw [List.count_append]; rfl
    _ = (List.range 64).countP fun x => s.pixel x y := s.count_line y
    _ = ((List.range 64).map fun x => (x, y)).countP fun p => s.pixel p.1 p.2 := by
      rw [List.countP_map]
      rfl

/-- Off the screen, no pixel is lit. -/
theorem pixel_of_off {s : Screen} {x y : Nat} (h : ¬ (x < 64 ∧ y < 32)) :
    s.pixel x y = false := by
  rw [← Bool.not_eq_true]
  intro hlit
  exact h (mem_grid.mp (mem_positions_of_pixel hlit))

/-- Different screens have different texts. -/
theorem eq_of_text_eq {s t : Screen} (h : s.text = t.text) : s = t := by
  refine ext_pixel fun x y => ?_
  by_cases hon : x < 64 ∧ y < 32
  · have hmark := s.getElem?_text hon.1 hon.2
    rw [h, t.getElem?_text hon.1 hon.2, Option.some.injEq] at hmark
    rw [Bool.eq_iff_iff, ← mark_eq_hash_iff, ← mark_eq_hash_iff, hmark]
  · rw [pixel_of_off hon, pixel_of_off hon]

/-! ### Row by row -/

/-- The line that shows the bits of a row, the most significant first. -/
def rowLine (row : BitVec 64) : List Char := (List.range width).map fun x => mark (row.getMsbD x)

/-- Writes a row, from its most significant bit on, and ends the line. -/
def writeRow (out : String) (row : BitVec 64) : String :=
  ((List.range width).foldl (fun out x => out.push (mark (row.getMsbD x))) out).push '\n'

/-- Writes the rows of a screen one after the other. -/
def write (s : Screen) : String := s.rows.toList.foldl writeRow ""

/-- Characters that are written one by one stand behind what was there. -/
theorem toList_foldl_push {α : Type} (f : α → Char) (as : List α) (out : String) :
    (as.foldl (fun out a => out.push (f a)) out).toList = out.toList ++ as.map f := by
  induction as generalizing out with
  | nil => rw [List.foldl_nil, List.map_nil, List.append_nil]
  | cons a as ih =>
    rw [List.foldl_cons, ih, String.toList_push, List.append_assoc, List.map_cons]
    rfl

/-- Writing a row appends its line and the end of it. -/
theorem toList_writeRow (out : String) (row : BitVec 64) :
    (writeRow out row).toList = out.toList ++ (rowLine row ++ ['\n']) := by
  rw [writeRow, String.toList_push, toList_foldl_push, List.append_assoc, rowLine]

/-- Rows that are written one by one stand behind what was there. -/
theorem toList_foldl_writeRow (rows : List (BitVec 64)) (out : String) :
    (rows.foldl writeRow out).toList = out.toList ++ rows.flatMap (rowLine · ++ ['\n']) := by
  induction rows generalizing out with
  | nil => rw [List.foldl_nil, List.flatMap_nil, List.append_nil]
  | cons row rows ih =>
    rw [List.foldl_cons, ih, toList_writeRow, List.append_assoc, List.flatMap_cons]

/-- The lines that are written for the rows are the lines of the screen. -/
theorem map_rowLine_rows (s : Screen) : s.rows.toList.map rowLine = s.lines := by
  refine List.ext_getElem (by simp [lines, height]) fun y hy hy' => ?_
  have hrow : y < 32 := by simpa using hy
  simp [lines, line_eq, rowLine, width, pixel_of_lt s _ hrow]

/-- Writing the rows gives the text. -/
theorem write_eq_text (s : Screen) : s.write = s.text := by
  rw [← String.toList_inj, write, toList_foldl_writeRow, toList_text, ← map_rowLine_rows,
    List.flatMap_map, String.toList_empty, List.nil_append]

/-! ### Every screen can be drawn -/

/-- A sprite of one pixel. -/
def dot (p : Nat × Nat) : Drawing := ⟨[0x80], p.1, p.2⟩

/-- A dot for each lit pixel. -/
def dots (s : Screen) : List Drawing := (positions.filter fun p => s.pixel p.1 p.2).map dot

/-- A dot covers the pixel at its place and no other. -/
theorem covers_dot {p : Nat × Nat} (hp : p ∈ positions) (q : Nat × Nat) :
    (dot p).covers q.1 q.2 = (p == q) := by
  -- Of the eight bits of the sprite, only the leftmost is set.
  have hset : ∀ bit ∈ grid 8 1, (dot p).isSet bit = true ↔ bit = (0, 0) := by
    show ∀ bit ∈ grid 8 1,
      ([0x80][bit.2]?.getD (0 : UInt8)).toNat.testBit (7 - bit.1) = true ↔ bit = (0, 0)
    decide
  obtain ⟨hx, hy⟩ : p.1 < 64 ∧ p.2 < 32 := mem_grid.mp hp
  have hplace : (dot p).place (0, 0) = p :=
    Prod.ext (Nat.mod_eq_of_lt hx) (Nat.mod_eq_of_lt hy)
  rw [Bool.eq_iff_iff, Drawing.covers_iff, beq_iff_eq]
  constructor
  · rintro ⟨bit, hbit, hshown, rfl⟩
    rw [(hset bit hbit).mp (Bool.and_eq_true_iff.mp hshown).1, hplace]
  · rintro rfl
    have hbit : (0, 0) ∈ grid 8 1 := by decide
    have hon : (dot p).onScreen (0, 0) = true := by
      rw [Drawing.onScreen, hplace]
      exact decide_eq_true ⟨hx, hy⟩
    exact ⟨(0, 0), hbit, Bool.and_eq_true_iff.mpr ⟨(hset _ hbit).mpr rfl, hon⟩, hplace⟩

/-- A screen is what its dots draw. -/
theorem drawAll_dots (s : Screen) : blank.drawAll s.dots = s := by
  refine ext_pixel fun x y => ?_
  have hnodup : (positions.filter fun p => s.pixel p.1 p.2).Nodup := (nodup_grid 64 32).filter _
  have hmem : (x, y) ∈ (positions.filter fun p => s.pixel p.1 p.2) ↔ s.pixel x y = true := by
    rw [List.mem_filter]
    exact and_iff_right_of_imp mem_positions_of_pixel
  -- One dot covers the pixel if it is lit, and none if it is not.
  have hcount : s.dots.countP (·.covers x y) = if s.pixel x y then 1 else 0 := by
    calc s.dots.countP (·.covers x y)
      _ = (positions.filter fun p => s.pixel p.1 p.2).count (x, y) := by
        rw [dots, List.countP_map, List.count]
        refine List.countP_congr fun p hp => ?_
        rw [Function.comp_apply, covers_dot (List.mem_of_mem_filter hp) (x, y)]
      _ = if s.pixel x y then 1 else 0 := by
        rw [hnodup.count]
        exact if_congr hmem rfl rfl
  rw [pixel_drawAll, hcount, pixel_blank]
  cases s.pixel x y <;> rfl

/-! ### The picture -/

/-- The text is a faithful picture. Every screen can be drawn on the blank one, so these are the
screens that drawing and clearing lead to, and each of them has a text of 32 lines with 64
characters each, a newline behind each line, and nothing else. In line `y` and column `x`, which is
at `65 * y + x` in the text, there is a `#` if the pixel is lit and a `.` if it is not. So there is
one `#` for each lit pixel, and screens have the same text if and only if they are equal. Writing
the rows one after the other, from left to right, comes to the same text. -/
theorem text_shows_every_pixel (s : Screen) :
    let shown := s.text.toList
    let found := (shown.splitOn '\n').dropLast
    (∃ drawings, blank.drawAll drawings = s) ∧
    shown = found.flatMap (· ++ ['\n']) ∧
    found.map List.length = List.replicate 32 64 ∧
    (∀ (x : Fin 64) (y : Fin 32),
      let char := if s.pixel x y then '#' else '.'
      found[y.val]?.bind (·[x.val]?) = some char ∧ shown[65 * y.val + x.val]? = some char) ∧
    shown.count '#' = s.lit ∧
    (∀ t : Screen, s.text = t.text ↔ s = t) ∧
    s.write = s.text := by
  intro shown found
  have hfound : found = s.lines := by
    show (s.text.toList.splitOn '\n').dropLast = s.lines
    rw [splitOn_text, List.dropLast_concat]
  rw [hfound]
  refine ⟨⟨s.dots, s.drawAll_dots⟩, s.toList_text, s.map_length_lines, fun x y => ⟨?_, ?_⟩,
    s.count_text, fun t => ⟨eq_of_text_eq, congrArg text⟩, s.write_eq_text⟩
  · rw [s.getElem?_lines y.isLt, Option.bind_some]
    exact s.getElem?_line y x.isLt
  · exact s.getElem?_text x.isLt y.isLt

/-- A sprite at the right edge, of which two columns are shown. -/
example :
    ((blank.draw [0xE8, 0x80] 62 0).line 0).drop 60 = ['.', '.', '#', '#'] ∧
    ((blank.draw [0xE8, 0x80] 62 0).line 1).drop 60 = ['.', '.', '#', '.'] := by
  decide +kernel

end Screen

end Chip8
