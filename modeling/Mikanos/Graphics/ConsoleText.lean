import Mikanos.Graphics.Console
import Mikanos.Lib.TextWindow

/-!
# What the console shows

Three things represent the same text: the characters passed to `PutString` so
far, the rows of the buffer, and the pixels of the area.  The link between them
is a `TextWindow`, the last 25 lines of the input.  `Shows w self` says that the
buffer and the cursor are those of the window `w`, `Displays self screen` that
the pixels are those of the buffer, and `Step` is what one call preserves of
both: it holds of one character (`putChar_step`), of a string and of a sequence
of strings.

There are two drawing paths.  A character is drawn where the cursor stands, on
pixels that show background; a scroll fills the area and draws the rows anew.
`displays_type` and `displays_scroll` say that either leaves what rendering the
buffer gives.
-/

namespace Mikanos

open Canvas

namespace Console

/-- The lines above the current one that the buffer has room for. -/
abbrev room : Nat := kRows - 1

/-- The row of the buffer for a line: its first 79 characters, a NUL, and
nothing but NULs behind it. -/
def rowOf (line : List (BitVec 8)) : Row :=
  Vector.ofFn fun j => ((line.take (kColumns - 1))[j.val]?).getD 0

/-- The text in a row of the buffer. -/
def rowText (row : Row) : List (BitVec 8) := row.toList.takeWhile (· ≠ 0)

/-- The text in the row number `i`. -/
def textAt (self : Console) (i : Nat) : List (BitVec 8) :=
  ((self.buffer[i]?).map rowText).getD []

/-- The point is in the console's part of the screen. -/
def InArea (p : Int × Int) : Prop :=
  (0 ≤ p.1 ∧ p.1 < 8 * (kColumns : Int)) ∧ 0 ≤ p.2 ∧ p.2 < 16 * (kRows : Int)

/-- The buffer rendered on the background, at the pixel `(x, y)`. -/
def render (hankaku : HankakuBin) (self : Console) (x y : Nat) : PixelColor :=
  if inked hankaku (self.textAt (y / 16)) x (y % 16) then self.fgColor else self.bgColor

/-- Every pixel of the area is as the buffer says. -/
def Displays (hankaku : HankakuBin) (self : Console) (screen : Screen) : Prop :=
  ∀ x y : Nat, x < 8 * kColumns → y < 16 * kRows → screen (x, y) = self.render hankaku x y

/-- The buffer and the cursor are those of the window. -/
structure Shows (w : TextWindow (BitVec 8)) (console : Console) : Prop where
  above_le : w.above.length ≤ room
  noNul : ∀ i, 0 ∉ w.line i
  buffer : ∀ (i : Nat) (hi : i < kRows), console.buffer[i] = rowOf (w.line i)
  cursorRow : console.cursorRow = w.above.length
  cursorColumn : console.cursorColumn = (w.current.take (kColumns - 1)).length

/-! ## Rows -/

/-- A list copied into a longer vector and filled up is the list with the filling behind it. -/
theorem toList_filled {α : Type} (s : List α) (d : α) {n : Nat} (h : s.length ≤ n) :
    (Vector.ofFn fun j : Fin n => (s[j.val]?).getD d).toList
      = s ++ List.replicate (n - s.length) d := by
  apply List.ext_getElem
  · simp only [Vector.length_toList, List.length_append, List.length_replicate]
    omega
  · intro j hj hj'
    rw [Vector.getElem_toList, Vector.getElem_ofFn, List.getElem_append]
    split
    case isTrue hin => rw [List.getElem?_eq_getElem hin, Option.getD_some]
    case isFalse hout =>
        rw [List.getElem?_eq_none (Nat.le_of_not_lt hout), Option.getD_none,
          List.getElem_replicate]

/-- A row takes one character less than the console is wide. -/
theorem length_cut (line : List (BitVec 8)) :
    (line.take (kColumns - 1)).length ≤ kColumns - 1 :=
  List.length_take_le _ _

/-- A row is a text, its NUL and what is left of the row. -/
theorem toList_rowOf (line : List (BitVec 8)) :
    (rowOf line).toList = line.take (kColumns - 1) ++
      0 :: List.replicate (kColumns - (line.take (kColumns - 1)).length) 0 := by
  have hcut := length_cut line
  have hlength : kColumns + 1 - (line.take (kColumns - 1)).length
      = (kColumns - (line.take (kColumns - 1)).length) + 1 := by
    have hcolumns : kColumns = 80 := rfl
    omega
  rw [rowOf, toList_filled _ _ (by omega), hlength, List.replicate_succ]

/-- **A row reads back** as the characters that were put into it, cut off at the width. -/
theorem rowText_rowOf {line : List (BitVec 8)} (h : 0 ∉ line) :
    rowText (rowOf line) = line.take (kColumns - 1) := by
  have hcut : ∀ c ∈ line.take (kColumns - 1), (decide (c ≠ 0)) = true := by
    intro c hc
    have hne : c ≠ 0 := fun h0 => h (h0 ▸ List.mem_of_mem_take hc)
    simpa using hne
  rw [rowText, toList_rowOf, List.takeWhile_append_of_pos hcut]
  simp

/-- Drawing a row draws these characters. -/
theorem writeString_rowOf (hankaku : HankakuBin) (x y : Int) (color : PixelColor)
    {line : List (BitVec 8)} (h : 0 ∉ line) :
    writeString hankaku x y (rowOf line).toList color
      = .ok (textWrites hankaku x y color (line.take (kColumns - 1)) 0) := by
  rw [toList_rowOf]
  exact writeString_eq hankaku x y color (fun h0 => h (List.mem_of_mem_take h0)) _

/-- An empty line leaves its row empty. -/
theorem rowOf_nil : rowOf [] = Vector.replicate (kColumns + 1) 0 := by
  apply Vector.ext
  intro j hj
  simp [rowOf]

/-- A character in front of the last column goes behind the text of the row; the zero that ends
the text moves on by one. -/
theorem rowOf_concat {line : List (BitVec 8)} (h : line.length < kColumns - 1) (c : BitVec 8) :
    rowOf (line ++ [c])
      = (rowOf line).set line.length c (by unfold kColumns at *; omega) := by
  apply Vector.ext
  intro j hj
  have hcut : (line ++ [c]).take (kColumns - 1) = line ++ [c] := by
    apply List.take_of_length_le
    simp only [List.length_append, List.length_singleton]
    omega
  simp only [rowOf, Vector.getElem_set, Vector.getElem_ofFn, hcut,
    List.take_of_length_le (Nat.le_of_lt h)]
  by_cases hj' : line.length = j
  · simp [hj']
  · rw [if_neg hj']
    rcases Nat.lt_or_gt_of_ne hj' with hlt | hgt
    · rw [List.getElem?_eq_none (by simpa using hlt), List.getElem?_eq_none (Nat.le_of_lt hlt)]
    · rw [List.getElem?_append_left hgt]

/-- A character behind the last column is dropped. -/
theorem take_concat_of_full {line : List (BitVec 8)} (h : kColumns - 1 ≤ line.length)
    (c : BitVec 8) : (line ++ [c]).take (kColumns - 1) = line.take (kColumns - 1) :=
  List.take_append_of_le_length h

section

variable {hankaku : HankakuBin} {w : TextWindow (BitVec 8)} {self : Console}

/-- What a console that shows a window has in a row. -/
theorem Shows.textAt (h : Shows w self) {i : Nat} (hi : i < kRows) :
    self.textAt i = (w.line i).take (kColumns - 1) := by
  rw [Console.textAt, Vector.getElem?_eq_getElem hi, h.buffer i hi, Option.map_some,
    Option.getD_some, rowText_rowOf (h.noNul i)]

/-- What the buffer renders to, told by the lines of the window. -/
theorem Shows.render (h : Shows w self) (x : Nat) {y : Nat} (hy : y < 16 * kRows) :
    self.render hankaku x y
      = if inked hankaku ((w.line (y / 16)).take (kColumns - 1)) x (y % 16)
        then self.fgColor else self.bgColor := by
  rw [Console.render, h.textAt (Nat.div_lt_of_lt_mul hy)]

/-- The cursor is in one of the 25 rows. -/
theorem Shows.row_lt (h : Shows w self) : w.above.length < kRows := by
  have := h.above_le
  have hrows : kRows = 25 := rfl
  have hroom : room = 24 := rfl
  omega

/-- A new console shows the empty window: all rows are zero and the cursor is at the top left.
-/
theorem construct_shows (fgColor bgColor : PixelColor) :
    Shows TextWindow.empty (construct fgColor bgColor) := by
  have hline : ∀ i, (TextWindow.empty : TextWindow (BitVec 8)).line i = [] := by
    intro i
    cases i with
    | zero => rfl
    | succ i => rfl
  exact {
    above_le := Nat.zero_le _
    noNul := fun i h => by rw [hline i] at h; cases h
    buffer := fun i hi => by
      rw [hline i, rowOf_nil]
      exact Vector.getElem_replicate hi
    cursorRow := rfl
    cursorColumn := rfl }

end

/-! ## Pixels -/

section

variable (hankaku : HankakuBin)

/-- The calls that draw one text a row, for the first `n` rows. -/
def rowsWrites (color : PixelColor) (text : Nat → List (BitVec 8)) (n : Nat) : List Write :=
  (List.range n).flatMap fun row : Nat =>
    textWrites hankaku 0 (16 * (row : Int)) color (text row) 0

variable {hankaku} {color : PixelColor} {text : Nat → List (BitVec 8)} {n : Nat}

/-- The rows are drawn from the top, one below the other. -/
theorem rowsWrites_succ : rowsWrites hankaku color text (n + 1)
    = rowsWrites hankaku color text n ++
      textWrites hankaku 0 (16 * (n : Int)) color (text n) 0 := by
  rw [rowsWrites, List.range_succ, List.flatMap_append, List.flatMap_singleton]
  rfl

/-- The rows are drawn in one colour, that of the text. -/
theorem inOneInk_rowsWrites : InOneInk (rowsWrites hankaku color text n) color :=
  InOneInk.flatMap fun _ _ => inOneInk_textWrites hankaku _ _ color _ 0

/-- Rows that are drawn one below the other cover the pixels of their texts: the pixel at `x`,
`y` belongs to row `y / 16` and to the character in column `x / 8`. -/
theorem covers_rowsWrites {p : Int × Int} :
    Covers (rowsWrites hankaku color text n) p ↔
      ∃ x y : Nat, p = (↑x, ↑y) ∧ y / 16 < n ∧ inked hankaku (text (y / 16)) x (y % 16) = true := by
  simp only [rowsWrites, covers_flatMap, List.mem_range, covers_textWrites]
  constructor
  · intro ⟨row, hrow, dx, dy, hp, hink⟩
    have hdy := (inked_bounds hankaku hink).2
    have hdiv : (16 * row + dy) / 16 = row := by omega
    have hmod : (16 * row + dy) % 16 = dy := by omega
    refine ⟨dx, 16 * row + dy, ?_, by rw [hdiv]; exact hrow, by rw [hdiv, hmod]; exact hink⟩
    rw [hp]
    simp
  · intro ⟨x, y, hp, hrow, hink⟩
    refine ⟨y / 16, hrow, x, y % 16, ?_, hink⟩
    rw [hp, Prod.mk.injEq]
    omega

/-- Clearing the console covers its area, and no pixel besides. -/
theorem covers_clear {self : Console} {p : Int × Int} : Covers self.clear p ↔ InArea p := by
  have hfill : self.clear = fillRectangle 0 0 (8 * kColumns) (16 * kRows) self.bgColor := by
    simp only [clear, fillRectangle, Int.zero_add]
  rw [hfill, covers_fillRectangle]
  simp only [InArea, Int.zero_add, Nat.cast_mul, Nat.cast_ofNat]

/-- The console is cleared in the background colour. -/
theorem inOneInk_clear (self : Console) : InOneInk self.clear self.bgColor :=
  inOneInk_forInt fun _ _ => inOneInk_forInt fun _ _ => inOneInk_write _ _ _

/-- A pixel of the area, from its coordinates. -/
theorem inArea_natCast {x y : Nat} (hx : x < 8 * kColumns) (hy : y < 16 * kRows) :
    InArea ((x : Int), (y : Int)) := by
  have hrows : kRows = 25 := rfl
  have hcolumns : kColumns = 80 := rfl
  refine ⟨⟨Int.natCast_nonneg x, ?_⟩, Int.natCast_nonneg y, ?_⟩ <;> simp only <;> omega

/-- **The area filled and rows drawn on it**: whatever the screen showed before,
every pixel is now ink of its row or background. -/
theorem paint_clear_rows (self : Console) (screen : Screen) {x y : Nat} (hx : x < 8 * kColumns)
    (hy : y < 16 * kRows) :
    paint (self.clear ++ rowsWrites hankaku color text n) screen (↑x, ↑y)
      = if y / 16 < n ∧ inked hankaku (text (y / 16)) x (y % 16) = true then color
        else self.bgColor := by
  classical
  rw [paint_append, paint_uniform inOneInk_rowsWrites,
    paint_of_covers (inOneInk_clear self) (covers_clear.mpr (inArea_natCast hx hy))]
  have hcovers : Covers (rowsWrites hankaku color text n) ((x : Int), (y : Int)) ↔
      y / 16 < n ∧ inked hankaku (text (y / 16)) x (y % 16) = true := by
    rw [covers_rowsWrites]
    constructor
    · intro ⟨x', y', hp, hrow, hink⟩
      obtain ⟨hx', hy'⟩ := Prod.mk.inj hp
      obtain rfl := Int.ofNat.inj hx'
      obtain rfl := Int.ofNat.inj hy'
      exact ⟨hrow, hink⟩
    · intro ⟨hrow, hink⟩
      exact ⟨x, y, rfl, hrow, hink⟩
  simp only [hcovers]

/-- The cell of a character on the screen is 8 pixels wide and 16 high, and the glyph is drawn
in no other cell. -/
theorem covers_cell {col row x y : Nat} {c : BitVec 8} :
    Covers (writeAscii hankaku (8 * (col : Int)) (16 * (row : Int)) c color) (↑x, ↑y) ↔
      (x / 8 = col ∧ y / 16 = row) ∧ lit hankaku c (x % 8) (y % 16) = true := by
  rw [covers_writeAscii]
  constructor
  · intro ⟨dx, hdx, dy, hdy, hp, hlit⟩
    obtain ⟨hx, hy⟩ := Prod.mk.inj hp
    have hx' : x = 8 * col + dx := by omega
    have hy' : y = 16 * row + dy := by omega
    have hxm : x % 8 = dx := by omega
    have hym : y % 16 = dy := by omega
    exact ⟨⟨by omega, by omega⟩, by rw [hxm, hym]; exact hlit⟩
  · intro ⟨⟨hcol, hrow⟩, hlit⟩
    refine ⟨x % 8, by omega, y % 16, by omega, ?_, hlit⟩
    rw [Prod.mk.injEq]
    omega

end

/-! ## One character -/

section

variable (hankaku : HankakuBin)

/-- What a call that made the calls `writes` of `Write` and left the console
`after` has done, when the text in the window is now that of `w`. -/
structure Step (w : TextWindow (BitVec 8)) (writes : List Write) (before after : Console) :
    Prop where
  shows : Shows w after
  fgColor : after.fgColor = before.fgColor
  bgColor : after.bgColor = before.bgColor
  inArea : ∀ p, Covers writes p → InArea p
  displays : ∀ screen, Displays hankaku before screen → Displays hankaku after (paint writes screen)

variable {hankaku} {w w' w'' : TextWindow (BitVec 8)} {self self' self'' : Console}
  {writes writes' : List Write}

/-- Nothing was put. -/
theorem Step.refl (h : Shows w self) : Step hankaku w [] self self where
  shows := h
  fgColor := rfl
  bgColor := rfl
  inArea := fun _ ⟨_, hw, _⟩ => absurd hw List.not_mem_nil
  displays := fun _ hscreen => hscreen

/-- **Steps compose**: what the first has drawn, the second draws over, and the pixels are right
after both. -/
theorem Step.trans (h : Step hankaku w writes self self')
    (h' : Step hankaku w' writes' self' self'') :
    Step hankaku w' (writes ++ writes') self self'' where
  shows := h'.shows
  fgColor := h'.fgColor.trans h.fgColor
  bgColor := h'.bgColor.trans h.bgColor
  inArea := fun p hp => (covers_append.mp hp).elim (h.inArea p) (h'.inArea p)
  displays := fun screen hscreen => by
    rw [paint_append]
    exact h'.displays _ (h.displays screen hscreen)

/-- A step that draws nothing and renders to the same picture. -/
theorem Step.of_render_eq (h : Shows w' self') (hfg : self'.fgColor = self.fgColor)
    (hbg : self'.bgColor = self.bgColor)
    (hrender : ∀ x y, y < 16 * kRows → self'.render hankaku x y = self.render hankaku x y) :
    Step hankaku w' [] self self' where
  shows := h
  fgColor := hfg
  bgColor := hbg
  inArea := fun _ ⟨_, hw, _⟩ => absurd hw List.not_mem_nil
  displays := fun screen hscreen x y hx hy => by
    rw [hrender x y hy]
    exact hscreen x y hx hy

/-! ### A character that is not a newline -/

/-- A character that is not zero brings no zero into the lines, so the text of a row still ends
at its first zero. -/
theorem noNul_type {c : BitVec 8} (h : Shows w self) (hc : c ≠ 0) (i : Nat) :
    0 ∉ (w.type c).line i := by
  rw [TextWindow.line_type]
  split
  case isTrue =>
      have hcurrent : 0 ∉ w.current := by
        have hline := h.noNul w.above.length
        rwa [TextWindow.line_current] at hline
      intro h0
      rcases List.mem_append.mp h0 with h0 | h0
      · exact hcurrent h0
      · exact hc (List.mem_singleton.mp h0).symm
  case isFalse => exact h.noNul i

/-- The character is stored behind the text of the current row, and then every row of the buffer
holds its line of the window with that character typed. -/
theorem store_eq (h : Shows w self) (hfit : w.current.length < kColumns - 1) (c : BitVec 8) :
    ∃ buffer, self.store c = .ok buffer ∧
      ∀ (i : Nat) (hi : i < kRows), buffer[i] = rowOf ((w.type c).line i) := by
  have hrow := h.row_lt
  have hcolumn : w.current.length < kColumns + 1 := by
    have hcolumns : kColumns = 80 := rfl
    omega
  have hcut : w.current.take (kColumns - 1) = w.current :=
    List.take_of_length_le (Nat.le_of_lt hfit)
  have hline : self.buffer[w.above.length] = rowOf w.current := by
    rw [h.buffer _ hrow, TextWindow.line_current]
  refine ⟨self.buffer.set w.above.length ((rowOf w.current).set w.current.length c hcolumn) hrow,
    ?_, ?_⟩
  · rw [store, h.cursorRow, h.cursorColumn, hcut, elementAt_natCast _ hrow, bind_ok,
      setElement_natCast _ hcolumn, bind_ok, setElement_natCast _ hrow, hline]
  · intro i hi
    rw [Vector.getElem_set, TextWindow.line_type]
    by_cases hi' : w.above.length = i
    · rw [if_pos hi', if_pos hi'.symm, rowOf_concat hfit]
    · rw [if_neg hi', if_neg (Ne.symm hi'), h.buffer i hi]

/-- **Incremental drawing.**  The new character is drawn on the one cell whose
picture changes, and there was background. -/
theorem displays_type (h : Shows w self) (hfit : w.current.length < kColumns - 1) {c : BitVec 8}
    (h' : Shows (w.type c) self') (hfg : self'.fgColor = self.fgColor)
    (hbg : self'.bgColor = self.bgColor) {screen : Screen}
    (hscreen : Displays hankaku self screen) :
    Displays hankaku self' (paint
      (writeAscii hankaku (8 * (w.current.length : Int)) (16 * (w.above.length : Int)) c
        self.fgColor) screen) := by
  classical
  intro x y hx hy
  have hcut : w.current.take (kColumns - 1) = w.current :=
    List.take_of_length_le (Nat.le_of_lt hfit)
  have hcut' : (w.current ++ [c]).take (kColumns - 1) = w.current ++ [c] := by
    apply List.take_of_length_le
    rw [List.length_append, List.length_singleton]
    exact hfit
  rw [paint_uniform (inOneInk_writeAscii hankaku _ _ c _), hscreen x y hx hy,
    h.render x hy, h'.render x hy, hfg, hbg, TextWindow.line_type]
  simp only [covers_cell]
  by_cases hrow : y / 16 = w.above.length
  · rw [if_pos hrow, hcut', inked_concat, hrow, TextWindow.line_current, hcut]
    by_cases hcol : x / 8 = w.current.length
    · have hnone : inked hankaku w.current x (y % 16) = false := by
        by_contra hink
        have hin := (inked_bounds hankaku (Bool.of_not_eq_false hink)).1
        omega
      simp [hcol, hnone]
    · simp [hcol]
  · simp [hrow]

/-- **A character that is not a newline** is written at the end of the current
line, or dropped where that is full. -/
theorem putChar_type (h : Shows w self) {c : BitVec 8} (hnl : c ≠ newlineChar) (hc : c ≠ 0) :
    ∃ writes self', self.putChar hankaku c = .ok (writes, self') ∧
      Step hankaku (w.type c) writes self self' := by
  have hcolumns : kColumns = 80 := rfl
  by_cases hfit : w.current.length < kColumns - 1
  · obtain ⟨buffer, hstore, hbuffer⟩ := store_eq h hfit c
    have hcut : w.current.take (kColumns - 1) = w.current :=
      List.take_of_length_le (Nat.le_of_lt hfit)
    have hcolumn : self.cursorColumn = w.current.length := by rw [h.cursorColumn, hcut]
    have hroom : self.cursorColumn < (kColumns : Int) - 1 := by omega
    have hshows : Shows (w.type c)
        { self with buffer := buffer, cursorColumn := self.cursorColumn + 1 } := {
      above_le := h.above_le
      noNul := noNul_type h hc
      buffer := hbuffer
      cursorRow := h.cursorRow
      cursorColumn := by
        rw [TextWindow.current_type, List.take_of_length_le (by
          rw [List.length_append, List.length_singleton]
          exact hfit), List.length_append, List.length_singleton, hcolumn]
        simp }
    refine ⟨_, _, by rw [putChar, if_neg hnl, if_pos hroom, hstore]; rfl, ?_⟩
    refine { shows := hshows, fgColor := rfl, bgColor := rfl, inArea := ?_, displays := ?_ }
    · intro p hp
      obtain ⟨dx, hdx, dy, hdy, rfl, _⟩ := (covers_writeAscii hankaku).mp hp
      have hrow := h.row_lt
      have hcursor := h.cursorRow
      have hrows : kRows = 25 := rfl
      refine ⟨⟨?_, ?_⟩, ?_, ?_⟩ <;> simp only <;> omega
    · intro screen hscreen
      have hdisplays := displays_type h hfit hshows rfl rfl hscreen
      rw [← hcolumn, ← h.cursorRow] at hdisplays
      exact hdisplays
  · have hfull : kColumns - 1 ≤ w.current.length := Nat.le_of_not_lt hfit
    have hline : ∀ i, ((w.type c).line i).take (kColumns - 1)
        = (w.line i).take (kColumns - 1) := by
      intro i
      rw [TextWindow.line_type]
      split
      case isTrue hi => rw [hi, TextWindow.line_current, take_concat_of_full hfull]
      case isFalse => rfl
    have hshows : Shows (w.type c) self := {
      above_le := h.above_le
      noNul := noNul_type h hc
      buffer := fun i hi => by rw [h.buffer i hi, rowOf, rowOf, hline]
      cursorRow := h.cursorRow
      cursorColumn := by
        rw [h.cursorColumn, TextWindow.current_type, take_concat_of_full hfull] }
    have hnoroom : ¬ self.cursorColumn < (kColumns : Int) - 1 := by
      rw [h.cursorColumn, List.length_take_of_le hfull]
      omega
    refine ⟨[], self, by rw [putChar, if_neg hnl, if_neg hnoroom], ?_⟩
    exact Step.of_render_eq hshows rfl rfl fun _ _ _ => rfl

/-! ### A newline -/

/-- A new line is free of NULs. -/
theorem noNul_feed (h : Shows w self) (i : Nat) : 0 ∉ (w.feed room).line i := by
  rcases Nat.lt_or_eq_of_le h.above_le with hroom | hfull
  · rw [TextWindow.line_feed_of_room hroom]
    exact h.noNul i
  · rw [TextWindow.line_feed_of_full hfull]
    exact h.noNul (i + 1)

/-- While there are rows left, a newline only moves the cursor to the start of the next row;
nothing is drawn, and the window has gained an empty line. -/
theorem newline_room (h : Shows w self) (hroom : w.above.length < room) :
    ∃ writes self', self.newline hankaku = .ok (writes, self') ∧
      Step hankaku (w.feed room) writes self self' := by
  have hrows : kRows = 25 := rfl
  have hlimit : room = 24 := rfl
  have hrow : self.cursorRow < (kRows : Int) - 1 := by
    rw [h.cursorRow]
    omega
  have hshows : Shows (w.feed room)
      { self with cursorRow := self.cursorRow + 1, cursorColumn := 0 } := {
    above_le := TextWindow.length_above_feed_le room w
    noNul := noNul_feed h
    buffer := fun i hi => by
      rw [TextWindow.line_feed_of_room hroom]
      exact h.buffer i hi
    cursorRow := by
      rw [TextWindow.above_feed_of_room hroom, TextWindow.lines, List.length_append,
        List.length_singleton, h.cursorRow]
      simp
    cursorColumn := by
      rw [TextWindow.current_feed]
      rfl }
  refine ⟨[], _, by rw [newline]; exact if_pos hrow, ?_⟩
  refine Step.of_render_eq hshows rfl rfl ?_
  intro x y hy
  rw [hshows.render x hy, h.render x hy, TextWindow.line_feed_of_room hroom]

/-- The rows moved up by the first `n` rounds of the loop, by induction on `n`: row `i` has got
the line below it, and the text of these lines has been drawn, row by row. -/
theorem moveRows_eq (hnul : ∀ i, 0 ∉ w.line i)
    (hrow : ∀ (i : Nat) (hi : i < kRows), self.buffer[i] = rowOf (w.line i))
    (n : Nat) (hn : n ≤ kRows - 1) :
    ∃ buffer, self.moveRows hankaku n = .ok
        (rowsWrites hankaku self.fgColor
          (fun row => (w.line (row + 1)).take (kColumns - 1)) n, buffer) ∧
      ∀ (i : Nat) (hi : i < kRows),
        buffer[i] = rowOf (if i < n then w.line (i + 1) else w.line i) := by
  have hrows : kRows = 25 := rfl
  induction n with
  | zero =>
      refine ⟨self.buffer, rfl, ?_⟩
      intro i hi
      rw [if_neg (Nat.not_lt_zero i)]
      exact hrow i hi
  | succ n ih =>
      obtain ⟨buffer, hmoved, hbuffer⟩ := ih (by omega)
      have hn0 : n < kRows := by omega
      have hn1 : n + 1 < kRows := by omega
      have hbelow : elementAt buffer ((n : Int) + 1) = .ok (rowOf (w.line (n + 1))) := by
        have hat := elementAt_natCast buffer hn1
        rw [hbuffer (n + 1) hn1, if_neg (by omega)] at hat
        exact hat
      have hself : elementAt (buffer.set n (rowOf (w.line (n + 1))) hn0) (n : Int)
          = .ok (rowOf (w.line (n + 1))) := by
        rw [elementAt_natCast _ hn0, Vector.getElem_set_self]
      refine ⟨buffer.set n (rowOf (w.line (n + 1))) hn0, ?_, ?_⟩
      · rw [moveRows, hmoved, bind_ok]
        simp only
        rw [hbelow, bind_ok, setElement_natCast _ hn0, bind_ok, hself, bind_ok,
          writeString_rowOf hankaku 0 (16 * (n : Int)) self.fgColor (hnul (n + 1)),
          rowsWrites_succ]
        rfl
      · intro i hi
        rw [Vector.getElem_set]
        by_cases hi' : n = i
        · rw [if_pos hi', if_pos (by omega), hi']
        · rw [if_neg hi', hbuffer i hi]
          congr 1
          by_cases hlt : i < n
          · rw [if_pos hlt, if_pos (by omega)]
          · rw [if_neg hlt, if_neg (by omega)]

/-- **The redraw on a scroll.**  Filling the area and drawing the moved rows
leaves what the buffer renders to. -/
theorem displays_scroll (hfull : w.above.length = room) (h' : Shows (w.feed room) self')
    (hfg : self'.fgColor = self.fgColor) (hbg : self'.bgColor = self.bgColor)
    (screen : Screen) :
    Displays hankaku self' (paint (self.clear ++ rowsWrites hankaku self.fgColor
      (fun row => (w.line (row + 1)).take (kColumns - 1)) (kRows - 1)) screen) := by
  intro x y hx hy
  rw [paint_clear_rows self screen hx hy, h'.render x hy, hfg, hbg,
    TextWindow.line_feed_of_full hfull]
  by_cases hrow : y / 16 < kRows - 1
  · simp only [hrow, true_and]
  · have hlast : w.line (y / 16 + 1) = [] := by
      apply TextWindow.line_of_gt
      have hlimit : room = kRows - 1 := rfl
      omega
    have hnone : inked hankaku (([] : List (BitVec 8)).take (kColumns - 1)) x (y % 16)
        = false := by
      rw [List.take_nil]
      rfl
    rw [if_neg (fun hc => hrow hc.1), hlast, hnone]
    rfl

/-- In the last row, a newline scrolls: the background is filled, the rows are moved up and
drawn again, and the last one is cleared. On the window the topmost line is let go. -/
theorem newline_scroll (h : Shows w self) (hfull : w.above.length = room) :
    ∃ writes self', self.newline hankaku = .ok (writes, self') ∧
      Step hankaku (w.feed room) writes self self' := by
  have hrows : kRows = 25 := rfl
  have hlimit : room = 24 := rfl
  have hcolumns : kColumns = 80 := rfl
  have hrow : ¬ self.cursorRow < (kRows : Int) - 1 := by
    rw [h.cursorRow]
    omega
  have hlast : kRows - 1 < kRows := by omega
  obtain ⟨buffer, hmoved, hbuffer⟩ := @moveRows_eq hankaku w { self with cursorColumn := 0 }
    h.noNul h.buffer (kRows - 1) le_rfl
  have hempty : setElement buffer ((kRows : Int) - 1) (Vector.replicate (kColumns + 1) 0)
      = .ok (buffer.set (kRows - 1) (rowOf []) hlast) := by
    rw [rowOf_nil]
    exact setElement_natCast buffer hlast _
  have hshows : Shows (w.feed room)
      { self with cursorColumn := 0, buffer := buffer.set (kRows - 1) (rowOf []) hlast } := {
    above_le := TextWindow.length_above_feed_le room w
    noNul := noNul_feed h
    buffer := fun i hi => by
      rw [TextWindow.line_feed_of_full hfull, Vector.getElem_set]
      by_cases hi' : kRows - 1 = i
      · rw [if_pos hi', TextWindow.line_of_gt (by omega)]
      · rw [if_neg hi', hbuffer i hi, if_pos (by omega)]
    cursorRow := by
      rw [TextWindow.above_feed_of_full hfull, TextWindow.lines, List.length_drop,
        List.length_append, List.length_singleton, h.cursorRow]
      simp
    cursorColumn := by
      rw [TextWindow.current_feed]
      rfl }
  refine ⟨self.clear ++ rowsWrites hankaku self.fgColor
    (fun row => (w.line (row + 1)).take (kColumns - 1)) (kRows - 1), _, ?_,
    { shows := hshows, fgColor := rfl, bgColor := rfl, inArea := ?_, displays := ?_ }⟩
  · rw [newline]
    simp only
    rw [if_neg hrow, hmoved, bind_ok]
    simp only
    rw [hempty]
    simp only [Except.map, clear]
  · intro p hp
    rcases covers_append.mp hp with hp | hp
    · exact covers_clear.mp hp
    · obtain ⟨x, y, rfl, hy, hink⟩ := covers_rowsWrites.mp hp
      have hx := (inked_bounds hankaku hink).1
      have hcut := length_cut (w.line (y / 16 + 1))
      exact inArea_natCast (by omega) (by omega)
  · intro screen _
    exact displays_scroll hfull hshows rfl rfl screen

/-! ## Strings -/

/-- **One character of a string** does to the console what it does to the window: a newline
feeds it and another character is typed; behind the last column nothing is stored or drawn, and
the row shows only the front of its line. -/
theorem putChar_step (h : Shows w self) {c : BitVec 8} (hc : c ≠ 0) :
    ∃ writes self', self.putChar hankaku c = .ok (writes, self') ∧
      Step hankaku (w.read newlineChar room c) writes self self' := by
  by_cases hnl : c = newlineChar
  · rw [putChar, if_pos hnl, TextWindow.read, if_pos hnl]
    rcases Nat.lt_or_eq_of_le h.above_le with hroom | hfull
    · exact newline_room h hroom
    · exact newline_scroll h hfull
  · rw [TextWindow.read, if_neg hnl]
    exact putChar_type h hnl hc

/-- The loop of `PutString` reads the characters in front of the zero, by induction over them:
each is one step of the window, and the calls of `Write` come one after the other. -/
theorem putBytes_step (h : Shows w self) {s : List (BitVec 8)} (hs : 0 ∉ s) :
    ∃ writes self', self.putBytes hankaku (s ++ [0]) = .ok (writes, self') ∧
      Step hankaku (s.foldl (TextWindow.read newlineChar room) w) writes self self' := by
  induction s generalizing w self with
  | nil => exact ⟨[], self, rfl, Step.refl h⟩
  | cons c s ih =>
      have hc : c ≠ 0 := fun h0 => hs (h0 ▸ List.mem_cons_self)
      obtain ⟨drawn, self₁, hchar, hstep⟩ := @putChar_step hankaku _ _ h c hc
      obtain ⟨writes, self₂, hrest, hsteps⟩ :=
        ih hstep.shows fun h0 => hs (List.mem_cons_of_mem c h0)
      refine ⟨drawn ++ writes, self₂, ?_, hstep.trans hsteps⟩
      rw [List.cons_append, putBytes, if_neg hc, hchar, bind_ok]
      simp only
      rw [hrest]
      rfl

/-- **Any number of strings** do to the console what their characters do to the
window, one after the other. -/
theorem putStrings_step (h : Shows w self) (calls : List CString) :
    ∃ writes self', self.putStrings hankaku calls = .ok (writes, self') ∧
      Step hankaku ((calls.flatMap CString.chars).foldl (TextWindow.read newlineChar room) w)
        writes self self' := by
  induction calls generalizing w self with
  | nil => exact ⟨[], self, rfl, Step.refl h⟩
  | cons s calls ih =>
      obtain ⟨drawn, self₁, hstring, hstep⟩ := @putBytes_step hankaku _ _ h s.chars s.noNul
      obtain ⟨writes, self₂, hrest, hsteps⟩ := ih hstep.shows
      refine ⟨drawn ++ writes, self₂, ?_, ?_⟩
      · rw [putStrings, putString, CString.bytes, hstring, bind_ok]
        simp only
        rw [hrest]
        rfl
      · rw [List.flatMap_cons, List.foldl_append]
        exact hstep.trans hsteps

/-- The window determines the console: two consoles with the same colours that show the same
window are equal, so the history of the calls leaves no other trace. -/
theorem Shows.unique (h : Shows w self) (h' : Shows w self')
    (hfg : self.fgColor = self'.fgColor) (hbg : self.bgColor = self'.bgColor) :
    self = self' := by
  have hbuffer : self.buffer = self'.buffer := by
    apply Vector.ext
    intro i hi
    rw [h.buffer i hi, h'.buffer i hi]
  have hrow : self.cursorRow = self'.cursorRow := by rw [h.cursorRow, h'.cursorRow]
  have hcolumn : self.cursorColumn = self'.cursorColumn := by
    rw [h.cursorColumn, h'.cursorColumn]
  obtain ⟨fg, bg, buffer, row, column⟩ := self
  obtain ⟨fg', bg', buffer', row', column'⟩ := self'
  simp only at hfg hbg hbuffer hrow hcolumn
  rw [hfg, hbg, hbuffer, hrow, hcolumn]

/-! ## Drawing all anew -/

variable (hankaku) in
/-- `WriteString` of the first rows of the buffer. -/
def drawRows (self : Console) : Nat → Except Fault (List Write)
  | 0 => .ok []
  | row + 1 =>
      (drawRows self row).bind fun writes =>
      (elementAt self.buffer row).bind fun line =>
      (writeString hankaku 0 (16 * row) line.toList self.fgColor).map (writes ++ ·)

variable (hankaku) in
/-- The area filled and then every row drawn, as a scroll does it. -/
def redraw (self : Console) : Except Fault (List Write) :=
  (self.drawRows hankaku kRows).map (self.clear ++ ·)

/-- The loop that redraws the console after a scroll draws the rows of the window. -/
theorem drawRows_eq (h : Shows w self) (n : Nat) (hn : n ≤ kRows) :
    self.drawRows hankaku n = .ok (rowsWrites hankaku self.fgColor
      (fun row => (w.line row).take (kColumns - 1)) n) := by
  induction n with
  | zero => rfl
  | succ n ih =>
      rw [drawRows, ih (by omega), bind_ok, elementAt_natCast _ hn, bind_ok, h.buffer n hn,
        writeString_rowOf hankaku 0 (16 * (n : Int)) self.fgColor (h.noNul n), rowsWrites_succ]
      rfl

/-- Drawing all anew leaves the picture of the buffer, whatever was there. -/
theorem redraw_displays (h : Shows w self) :
    ∃ writes, self.redraw hankaku = .ok writes ∧
      ∀ screen, Displays hankaku self (paint writes screen) := by
  refine ⟨_, by rw [redraw, drawRows_eq h kRows le_rfl]; rfl, ?_⟩
  intro screen x y hx hy
  rw [paint_clear_rows self screen hx hy, h.render x hy]
  have hrow : y / 16 < kRows := Nat.div_lt_of_lt_mul hy
  simp only [hrow, true_and]

/-! ## The text model -/

/-- The lines of all that was passed to `PutString`. -/
def linesOf (calls : List CString) : List (List (BitVec 8)) :=
  (calls.flatMap CString.chars).splitOn newlineChar

/-- Even without text there is a line. -/
theorem linesOf_ne_nil (calls : List CString) : linesOf calls ≠ [] :=
  List.splitOn_ne_nil newlineChar _

variable (hankaku) in
/-- **What the console shows.**  After any calls of `PutString` the buffer holds
the last 25 lines of their text, each cut to 79 characters, the cursor stands
behind the last one, and the pixels are those of the buffer.  The same text in
other portions, or everything drawn anew, gives the same. -/
theorem putStrings_shows (fgColor bgColor : PixelColor) (screen : Screen)
    (hbackground : ∀ x y : Nat, x < 8 * kColumns → y < 16 * kRows → screen (x, y) = bgColor)
    (calls : List CString) :
    ∃ writes self, (construct fgColor bgColor).putStrings hankaku calls = .ok (writes, self) ∧
      (∀ (i : Nat) (hi : i < kRows),
        self.buffer[i] = rowOf ((((linesOf calls).rtake kRows)[i]?).getD [])) ∧
      self.cursorRow = (min (linesOf calls).length kRows : Nat) - 1 ∧
      self.cursorColumn
        = (((linesOf calls).getLast (linesOf_ne_nil calls)).take (kColumns - 1)).length ∧
      (∀ x y : Nat, x < 8 * kColumns → y < 16 * kRows →
        paint writes screen (x, y) = self.render hankaku x y) ∧
      (∀ calls' : List CString, calls'.flatMap CString.chars = calls.flatMap CString.chars →
        ∃ writes', (construct fgColor bgColor).putStrings hankaku calls' = .ok (writes', self) ∧
          ∀ x y : Nat, x < 8 * kColumns → y < 16 * kRows →
            paint writes' screen (x, y) = paint writes screen (x, y)) ∧
      ∃ redrawn, self.redraw hankaku = .ok redrawn ∧
        ∀ (before : Screen) (x y : Nat), x < 8 * kColumns → y < 16 * kRows →
          paint redrawn before (x, y) = paint writes screen (x, y) := by
  have hnew := construct_shows fgColor bgColor
  have hblank : Displays hankaku (construct fgColor bgColor) screen := by
    intro x y hx hy
    have hempty : (TextWindow.empty : TextWindow (BitVec 8)).line (y / 16) = [] := by
      cases y / 16 with
      | zero => rfl
      | succ i => rfl
    rw [hbackground x y hx hy, hnew.render x hy, hempty]
    rfl
  obtain ⟨writes, self, hrun, hstep⟩ := @putStrings_step hankaku _ _ hnew calls
  have hwindow : (calls.flatMap CString.chars).foldl (TextWindow.read newlineChar room)
      TextWindow.empty = TextWindow.ofText newlineChar room (calls.flatMap CString.chars) := rfl
  rw [hwindow] at hstep
  have hshows := hstep.shows
  have hdisplays := hstep.displays screen hblank
  have hlines := TextWindow.ofText_lines newlineChar room (calls.flatMap CString.chars)
  refine ⟨writes, self, hrun, ?_, ?_, ?_, hdisplays, ?_, ?_⟩
  · intro i hi
    rw [hshows.buffer i hi, TextWindow.line, hlines]
    rfl
  · have hlength := congrArg List.length hlines
    rw [TextWindow.lines, List.length_append, List.length_singleton, List.rtake,
      List.length_drop] at hlength
    have hrows : kRows = 25 := rfl
    have hlimit : room = 24 := rfl
    rw [hshows.cursorRow, linesOf]
    omega
  · rw [hshows.cursorColumn, TextWindow.current_eq]
    rfl
  · intro calls' hsame
    obtain ⟨writes', self', hrun', hstep'⟩ := @putStrings_step hankaku _ _ hnew calls'
    rw [hsame, hwindow] at hstep'
    have hself : self' = self := hstep'.shows.unique hshows
      (hstep'.fgColor.trans hstep.fgColor.symm) (hstep'.bgColor.trans hstep.bgColor.symm)
    rw [hself] at hrun'
    refine ⟨writes', hrun', ?_⟩
    intro x y hx hy
    rw [hdisplays x y hx hy, hstep'.displays screen hblank x y hx hy, hself]
  · obtain ⟨redrawn, hredraw, hsame⟩ := @redraw_displays hankaku _ _ hshows
    refine ⟨redrawn, hredraw, ?_⟩
    intro before x y hx hy
    rw [hdisplays x y hx hy, hsame before x y hx hy]

end

/-- Two lines in two portions, the second of which starts with the newline: the cursor is behind
the one character of the second line. -/
theorem putStrings_shows_two_lines :
    ∃ writes self, (construct ⟨255, 255, 255⟩ ⟨45, 118, 237⟩).putStrings
        (Vector.replicate hankakuBinSize 0xff)
        [⟨[0x48, 0x69], by decide⟩, ⟨[newlineChar, 0x48], by decide⟩] = .ok (writes, self) ∧
      self.cursorRow = 1 ∧ self.cursorColumn = 1 := by
  obtain ⟨writes, self, hrun, -, hrow, hcolumn, -⟩ :=
    putStrings_shows (Vector.replicate hankakuBinSize 0xff) ⟨255, 255, 255⟩ ⟨45, 118, 237⟩
      (fun _ => ⟨45, 118, 237⟩) (fun _ _ _ _ => rfl)
      [⟨[0x48, 0x69], by decide⟩, ⟨[newlineChar, 0x48], by decide⟩]
  exact ⟨writes, self, hrun, hrow, hcolumn⟩

end Console

end Mikanos
