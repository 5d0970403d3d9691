import Mikanos.Graphics.Font
import Mikanos.Graphics.FontCompiler

/-!
# Drawing from a compiled font

`font.cpp` takes the size of the table from the linker, so it draws from a font of any number
of glyphs.  `writeAsciiIn` is `WriteAscii` for a table of any size; for 256 glyphs it is the
`writeAscii` of the console (`writeAsciiIn_eq`).

The compiler and the drawing code agree on the order of the bits and of the lines.  They do not
agree on the codes from 128 on, for which `GetFont` finds no glyph, and on a table with a byte
too many at its start (`draws_iff`).
-/

namespace Mikanos

open Canvas

/-- `GetFont(c)` for a table of so many bytes: the index into it. -/
def getFontIn (binSize : Nat) (c : BitVec 8) : Option Nat :=
  let index : BitVec 32 := 16 * c.signExtend 32
  if binSize ≤ index.toNat then none else some index.toNat

/-- The inner loop of `WriteAscii`, for the line `font[dy]`. -/
def writeLine (x y : Int) (color : PixelColor) (line : BitVec 8) (dy : Nat) : List Write :=
  (List.range 8).flatMap fun dx : Nat =>
    if ((line.setWidth 32 <<< dx) &&& 0x80#32) ≠ 0 then [write (x + dx) (y + dy) color] else []

/-- The outer loop of `WriteAscii`, over the rounds `dys`. -/
def writeLines (hankaku : List (BitVec 8)) (font : Nat) (x y : Int) (color : PixelColor) :
    List Nat → Except Fault (List Write)
  | [] => .ok []
  | dy :: dys =>
      match hankaku[font + dy]? with
      | none => .error .outOfBounds
      | some line =>
          (writeLines hankaku font x y color dys).map (writeLine x y color line dy ++ ·)

/-- `WriteAscii(writer, x, y, c, color)` for a table of any size. -/
def writeAsciiIn (hankaku : List (BitVec 8)) (x y : Int) (c : BitVec 8) (color : PixelColor) :
    Except Fault (List Write) :=
  match getFontIn hankaku.length c with
  | none => .ok []
  | some font => writeLines hankaku font x y color (List.range 16)

/-! ## One glyph -/

variable {hankaku : List (BitVec 8)} {x y : Int} {color : PixelColor} {c : BitVec 8}

/-- The lines that are there are drawn. -/
theorem writeLines_eq {font : Nat} {line : Nat → BitVec 8} {dys : List Nat}
    (h : ∀ dy ∈ dys, hankaku[font + dy]? = some (line dy)) :
    writeLines hankaku font x y color dys =
      .ok (dys.flatMap fun dy => writeLine x y color (line dy) dy) := by
  induction dys with
  | nil => rfl
  | cons dy dys ih =>
      rw [writeLines, h dy List.mem_cons_self, ih fun d hd => h d (List.mem_cons_of_mem dy hd)]
      rfl

/-- A line of a glyph is drawn in one colour. -/
theorem inOneInk_writeLine (line : BitVec 8) (dy : Nat) :
    InOneInk (writeLine x y color line dy) color := by
  unfold writeLine
  refine InOneInk.flatMap fun dx _ => ?_
  split
  · exact inOneInk_write _ _ color
  · exact fun w hw => absurd hw List.not_mem_nil

/-- A line covers the pixels whose bits are set, the highest bit leftmost: bit `7 - dx` of the
byte stands for the pixel `dx` columns to the right of `x`. -/
theorem covers_writeLine {line : BitVec 8} {dy : Nat} {p : Int × Int} :
    Covers (writeLine x y color line dy) p ↔
      ∃ dx < 8, p = (x + (dx : Nat), y + (dy : Nat)) ∧ line.getLsbD (7 - dx) = true := by
  unfold writeLine
  simp only [covers_flatMap, List.mem_range]
  constructor
  · rintro ⟨dx, hdx, hcov⟩
    split at hcov
    · rename_i hbit
      exact ⟨dx, hdx, covers_write.mp hcov, (mask_eq line hdx).symm.trans (decide_eq_true hbit)⟩
    · obtain ⟨w, hw, -⟩ := hcov
      exact absurd hw List.not_mem_nil
  · rintro ⟨dx, hdx, hp, hbit⟩
    refine ⟨dx, hdx, ?_⟩
    rw [if_pos (of_decide_eq_true ((mask_eq line hdx).trans hbit))]
    exact covers_write.mpr hp

/-- The index of a character. -/
theorem index_eq (c : BitVec 8) : (16 * c.signExtend 32).toNat =
    if c.toNat < 128 then 16 * c.toNat else 2 ^ 32 - 16 * (256 - c.toNat) := by
  revert c
  decide +kernel

/-- For the table of 256 glyphs, whose size the linker symbols give, `GetFont` answers as the
one that the console is modelled with. -/
theorem getFontIn_eq (c : BitVec 8) :
    getFontIn hankakuBinSize c = (getFont c).map Glyph.offset := by
  unfold getFontIn getFont
  dsimp only
  by_cases hover : hankakuBinSize ≤ (16 * c.signExtend 32).toNat
  · rw [if_pos hover, dif_pos hover]
    rfl
  · rw [if_neg hover, dif_neg hover]
    rfl

/-- **`WriteAscii` of the console** is the one for 256 glyphs: with that table no read leaves
it, and both draw the same pixels in the same order. -/
theorem writeAsciiIn_eq (bin : HankakuBin) :
    writeAsciiIn bin.toList x y c color = .ok (writeAscii bin x y c color) := by
  have hlength : bin.toList.length = hankakuBinSize := Vector.length_toList
  rw [writeAsciiIn, writeAscii, hlength, getFontIn_eq]
  cases getFont c with
  | none => rfl
  | some font =>
      have hlines : ∀ dy ∈ List.range 16, bin.toList[font.offset + dy]? =
          some (if h : dy < 16 then font.line bin ⟨dy, h⟩ else 0) := by
        intro dy hdy
        have hlt := List.mem_range.mp hdy
        have hfits := font.fits
        rw [dif_pos hlt, List.getElem?_eq_getElem (by omega), Vector.getElem_toList]
        rfl
      refine (writeLines_eq hlines).trans (congrArg Except.ok ?_)
      rw [← List.map_coe_finRange_eq_range, List.flatMap_map]
      refine List.flatMap_congr fun dy _ => ?_
      rw [dif_pos dy.isLt, writeLine]
      refine List.flatMap_congr fun dx _ => ?_
      simp only [Glyph.bit, decide_eq_true_eq]

/-! ## The glyphs of a table -/

/-- The pixels of sixteen lines. -/
theorem covers_lines {line : Nat → BitVec 8} {p : Int × Int} :
    Covers ((List.range 16).flatMap fun dy => writeLine x y color (line dy) dy) p ↔
      ∃ (dx : Fin 8) (dy : Fin 16), p = (x + (dx : Nat), y + (dy : Nat)) ∧
        (line dy).getLsbD (7 - dx) = true := by
  simp only [covers_flatMap, List.mem_range, covers_writeLine]
  constructor
  · rintro ⟨dy, hdy, dx, hdx, hp, hbit⟩
    exact ⟨⟨dx, hdx⟩, ⟨dy, hdy⟩, hp, hbit⟩
  · rintro ⟨dx, dy, hp, hbit⟩
    exact ⟨dy, dy.isLt, dx, dx.isLt, hp, hbit⟩

/-- A pixel has one place in a glyph, so a pixel that is given by its place is lit exactly if
the glyph is marked there. -/
theorem exists_pixel_iff {P : Fin 8 → Fin 16 → Prop} {dx : Fin 8} {dy : Fin 16} :
    (∃ (dx' : Fin 8) (dy' : Fin 16), (x + (dx : Nat), y + (dy : Nat)) =
      (x + (dx' : Nat), y + (dy' : Nat)) ∧ P dx' dy') ↔ P dx dy := by
  constructor
  · rintro ⟨dx', dy', hp, h⟩
    obtain ⟨hx, hy⟩ := Prod.mk.inj hp
    obtain rfl : dx = dx' := Fin.ext (by omega)
    obtain rfl : dy = dy' := Fin.ext (by omega)
    exact h
  · exact fun h => ⟨dx, dy, rfl, h⟩

/-- **Drawing a glyph** is drawing its sixteen bytes: the lines cover exactly the marks of the
glyph if and only if each line is the byte of its row. A bit that differs shows as a pixel too
many or too few. -/
theorem covers_rows_iff (g : GlyphBlock) (line : Nat → BitVec 8) :
    (∀ p, Covers ((List.range 16).flatMap fun dy => writeLine x y color (line dy) dy) p ↔
      ∃ (dx : Fin 8) (dy : Fin 16), p = (x + (dx : Nat), y + (dy : Nat)) ∧
        g.rows dy dx ≠ .dot) ↔
      ∀ dy : Fin 16, line dy = g.rowByte dy := by
  simp only [covers_lines]
  constructor
  · intro h dy
    apply BitVec.eq_of_getLsbD_eq
    intro i hi
    have hdx : 7 - i < 8 := by omega
    have hflip : 7 - (7 - i) = i := by omega
    have hrow := getLsbD_rowByte g dy ⟨7 - i, hdx⟩
    have hpixel := h (x + ((⟨7 - i, hdx⟩ : Fin 8) : Nat), y + (dy : Nat))
    rw [exists_pixel_iff, exists_pixel_iff] at hpixel
    simp only [hflip] at hrow hpixel
    rw [hrow, Bool.eq_iff_iff, hpixel, decide_eq_true_eq]
  · intro h p
    have hbits : ∀ (dx : Fin 8) (dy : Fin 16),
        (line dy).getLsbD (7 - dx) = true ↔ g.rows dy dx ≠ .dot := by
      intro dx dy
      rw [h dy, getLsbD_rowByte, decide_eq_true_eq]
    simp only [hbits]

/-- The line `dy` of glyph number `k` is number `16 * k + dy` among the lines of all glyphs,
since every glyph has sixteen. -/
theorem glyphLines_getElem? {f : FontSource} {k : Nat} {g : GlyphBlock}
    (hg : f.glyphs[k]? = some g) (dy : Fin 16) :
    f.glyphLines[16 * k + dy]? = some (g.rowByte dy) := by
  unfold FontSource.glyphLines
  generalize f.glyphs = glyphs at hg
  induction glyphs generalizing k with
  | nil => cases hg
  | cons first glyphs ih =>
      rw [List.flatMap_cons]
      cases k with
      | zero =>
          cases hg
          rw [Nat.mul_zero, Nat.zero_add, List.getElem?_append_left (by simp), List.getElem?_ofFn,
            dif_pos dy.isLt]
      | succ k =>
          have hrest := ih hg
          rw [List.getElem?_append_right (by rw [List.length_ofFn]; omega), List.length_ofFn]
          have hindex : 16 * (k + 1) + dy.val - 16 = 16 * k + dy.val := by omega
          rwa [hindex]

/-- Sixteen lines for each glyph. -/
theorem length_glyphLines (f : FontSource) : f.glyphLines.length = 16 * f.glyphs.length := by
  unfold FontSource.glyphLines
  induction f.glyphs with
  | nil => rfl
  | cons g glyphs ih =>
      rw [List.flatMap_cons, List.length_append, List.length_ofFn, ih, List.length_cons]
      omega

/-! ## From the text to the screen -/

/-- The glyph of a character is drawn as the font text has it: in the colour, the pixels that
are not `.` and no others. -/
def Draws (f : FontSource) (c : BitVec 8) (x y : Int) (color : PixelColor) : Prop :=
  ∃ bytes writes, compile f.text = some bytes ∧ writeAsciiIn bytes x y c color = .ok writes ∧
    InOneInk writes color ∧ ∀ p, Covers writes p ↔ ∃ g, f.glyphs[c.toNat]? = some g ∧
      ∃ (dx : Fin 8) (dy : Fin 16), p = (x + (dx : Nat), y + (dy : Nat)) ∧ g.rows dy dx ≠ .dot

/-- The line that stands in front of line `i` of all glyphs. -/
def FontSource.lineBefore (f : FontSource) (i : Nat) : Option (BitVec 8) :=
  (BitVec.ofNat 8 (bitsInt f.strayRun) :: f.glyphLines)[i]?

/-- The text has no line too many at its start, or it fits a byte and does no harm to the
character; and a character behind the first 128 is blank. -/
structure Drawable (f : FontSource) (c : BitVec 8) : Prop where
  fits : bitsInt f.strayRun < 256
  inPlace : c.toNat < 128 → f.strayRun = [] ∨ ∀ dy < 16,
    f.lineBefore (16 * c.toNat + dy) = f.glyphLines[16 * c.toNat + dy]?
  blank : 128 ≤ c.toNat → ∀ g, f.glyphs[c.toNat]? = some g → ∀ dy dx, g.rows dy dx = .dot

variable {f : FontSource}

/-- The table of a font. -/
def FontSource.table (f : FontSource) : List (BitVec 8) :=
  if f.strayRun = [] then f.glyphLines
  else BitVec.ofNat 8 (bitsInt f.strayRun) :: f.glyphLines

/-- **The compiled font**: the bytes of the glyphs in the order of the file, and one more byte
if there is a stray run of marks. -/
theorem compile_eq_table (h : bitsInt f.strayRun < 256) : compile f.text = some f.table := by
  rw [compile_text, FontSource.table]
  by_cases hrun : f.strayRun = []
  · rw [if_pos hrun, if_pos hrun]
  · rw [if_neg hrun, if_neg hrun, if_pos h]

/-- A stray run of nine marks or more can be too large for a byte, and then the script stops
with an error. -/
theorem compile_fails (h : ¬ bitsInt f.strayRun < 256) : compile f.text = none := by
  have hrun : f.strayRun ≠ [] := by
    intro hnil
    rw [hnil] at h
    exact h (by decide)
  rw [compile_text, if_neg hrun, if_neg h]

/-- The table has 16 bytes for each glyph, and at most the stray byte besides. -/
theorem length_table (f : FontSource) :
    16 * f.glyphs.length ≤ f.table.length ∧ f.table.length ≤ 16 * f.glyphs.length + 1 := by
  have hlength := length_glyphLines f
  unfold FontSource.table
  split
  · omega
  · rw [List.length_cons]
    omega

/-- From character 128 on nothing is drawn: the `char` is negative, and the offset computed from
it lies far behind the table. -/
theorem writeAsciiIn_high (h : 128 ≤ c.toNat) : writeAsciiIn f.table x y c color = .ok [] := by
  have hcount := f.count
  have hlength := (length_table f).2
  have hindex := index_eq c
  have hlt := c.isLt
  rw [if_neg (by omega)] at hindex
  have hfont : getFontIn f.table.length c = none := if_pos (by omega)
  rw [writeAsciiIn, hfont]

/-- Below character 128 sixteen lines of the table are drawn, those from `16 * c` on, and the
reads stay within the table. -/
theorem writeAsciiIn_low (h : c.toNat < 128) (hc : c.toNat < f.glyphs.length) :
    ∃ line : Nat → BitVec 8, (∀ dy < 16, f.table[16 * c.toNat + dy]? = some (line dy)) ∧
      writeAsciiIn f.table x y c color =
        .ok ((List.range 16).flatMap fun dy => writeLine x y color (line dy) dy) := by
  have hlength := (length_table f).1
  have hindex := index_eq c
  rw [if_pos h] at hindex
  have hfont : getFontIn f.table.length c = some (16 * c.toNat) := by
    unfold getFontIn
    dsimp only
    rw [hindex, if_neg (by omega)]
  have hlines : ∀ dy < 16, f.table[16 * c.toNat + dy]? =
      some ((f.table[16 * c.toNat + dy]?).getD 0) := by
    intro dy hdy
    rw [List.getElem?_eq_getElem (by omega), Option.getD_some]
  refine ⟨_, hlines, ?_⟩
  rw [writeAsciiIn, hfont]
  exact writeLines_eq fun dy hdy => hlines dy (List.mem_range.mp hdy)

section Glyph

variable {g : GlyphBlock} {writes : List Write}

/-- What is left to show once the calls of `Write` are known: they are in one colour, so the
picture is right exactly if they cover the marks of the glyph. -/
theorem draws_iff_covers (hfits : bitsInt f.strayRun < 256) (hg : f.glyphs[c.toNat]? = some g)
    (hwrites : writeAsciiIn f.table x y c color = .ok writes) (hink : InOneInk writes color) :
    Draws f c x y color ↔ ∀ p, Covers writes p ↔
      ∃ (dx : Fin 8) (dy : Fin 16), p = (x + (dx : Nat), y + (dy : Nat)) ∧ g.rows dy dx ≠ .dot := by
  unfold Draws
  rw [compile_eq_table hfits, hg]
  constructor
  · rintro ⟨bytes, writes', hbytes, hwrites', -, hcovers⟩
    cases hbytes
    rw [hwrites] at hwrites'
    cases hwrites'
    simpa using hcovers
  · intro hcovers
    exact ⟨f.table, writes, rfl, hwrites, hink, by simpa using hcovers⟩

/-- Where nothing is drawn, as behind the first 128 characters, only a blank glyph comes out
right. -/
theorem covers_nil_iff : (∀ p, Covers ([] : List Write) p ↔
    ∃ (dx : Fin 8) (dy : Fin 16), p = (x + (dx : Nat), y + (dy : Nat)) ∧ g.rows dy dx ≠ .dot) ↔
      ∀ dy dx, g.rows dy dx = .dot := by
  constructor
  · intro h dy dx
    by_contra hset
    obtain ⟨w, hw, -⟩ := (h _).mpr ⟨dx, dy, rfl, hset⟩
    exact List.not_mem_nil hw
  · intro h p
    constructor
    · rintro ⟨w, hw, -⟩
      exact absurd hw List.not_mem_nil
    · rintro ⟨dx, dy, -, hset⟩
      exact absurd (h dy dx) hset

/-- The lines of the table are those of the glyph, if none is in front of them, or if it does
not show. -/
theorem rowBytes_iff (hg : f.glyphs[c.toNat]? = some g) {line : Nat → BitVec 8}
    (hlines : ∀ dy < 16, f.table[16 * c.toNat + dy]? = some (line dy)) :
    (∀ dy : Fin 16, line dy = g.rowByte dy) ↔ (f.strayRun = [] ∨ ∀ dy < 16,
      f.lineBefore (16 * c.toNat + dy) = f.glyphLines[16 * c.toNat + dy]?) := by
  have hrows : ∀ dy : Fin 16, f.glyphLines[16 * c.toNat + dy]? = some (g.rowByte dy) :=
    fun dy => glyphLines_getElem? hg dy
  by_cases hrun : f.strayRun = []
  · refine iff_of_true ?_ (Or.inl hrun)
    intro dy
    have hline := hlines dy dy.isLt
    rw [FontSource.table, if_pos hrun, hrows dy] at hline
    exact (Option.some.inj hline).symm
  · rw [or_iff_right hrun]
    have hbefore : ∀ dy < 16, f.lineBefore (16 * c.toNat + dy) = some (line dy) := by
      intro dy hdy
      have hline := hlines dy hdy
      rwa [FontSource.table, if_neg hrun] at hline
    constructor
    · intro h dy hdy
      rw [hbefore dy hdy]
      exact (congrArg some (h ⟨dy, hdy⟩)).trans (hrows ⟨dy, hdy⟩).symm
    · intro h dy
      have hsame := h dy dy.isLt
      rw [hbefore dy dy.isLt, hrows dy] at hsame
      exact Option.some.inj hsame

end Glyph

/-- **When the compiled font draws a glyph** as its text has it, for every font text and every
character that it has: exactly if `Drawable` holds, which looks at the text in front of the
first glyph, the lines next to each other and the number of the character. -/
theorem draws_iff (f : FontSource) (c : BitVec 8) (hc : c.toNat < f.glyphs.length) (x y : Int)
    (color : PixelColor) : Draws f c x y color ↔ Drawable f c := by
  obtain ⟨g, hg⟩ : ∃ g, f.glyphs[c.toNat]? = some g := ⟨_, List.getElem?_eq_getElem hc⟩
  by_cases hfits : bitsInt f.strayRun < 256
  · rcases Nat.lt_or_ge c.toNat 128 with hlow | hhigh
    · obtain ⟨line, hlines, hwrites⟩ := @writeAsciiIn_low x y color c f hlow hc
      have hink : InOneInk ((List.range 16).flatMap fun dy => writeLine x y color (line dy) dy)
          color := InOneInk.flatMap fun dy _ => inOneInk_writeLine (line dy) dy
      rw [draws_iff_covers hfits hg hwrites hink, covers_rows_iff, rowBytes_iff hg hlines]
      constructor
      · exact fun h => ⟨hfits, fun _ => h, fun hhigh => by omega⟩
      · exact fun h => h.inPlace hlow
    · have hink : InOneInk ([] : List Write) color := fun w hw => absurd hw List.not_mem_nil
      rw [draws_iff_covers hfits hg (writeAsciiIn_high hhigh) hink, covers_nil_iff]
      constructor
      · intro h
        refine ⟨hfits, fun hlow => by omega, fun _ g' hg' => ?_⟩
        rw [hg] at hg'
        cases hg'
        exact h
      · exact fun h => h.blank hhigh g hg
  · constructor
    · rintro ⟨bytes, writes, hbytes, -⟩
      rw [compile_fails hfits] at hbytes
      cases hbytes
    · exact fun h => absurd h.fits hfits

/-! ## A font with one glyph for all -/

/-- A glyph with a bar at its top. -/
def barGlyph : GlyphBlock where
  header := ['0', 'x']
  rows dy _ := if dy = 0 then .atSign else .dot
  blanks := [[]]
  headerLine := by decide
  headerStart := by
    intro c hc
    obtain rfl : '0' = c := Option.some.inj hc
    rfl
  blank := by decide

/-- A font of 256 bars. -/
def barFont : FontSource where
  leading := [[]]
  glyphs := List.replicate 256 barGlyph
  leadingBlank := by decide
  count := by rw [List.length_replicate]

/-- The sample font has 256 times the same glyph. -/
theorem barFont_glyphs {k : Nat} (hk : k < 256) : barFont.glyphs[k]? = some barGlyph := by
  rw [barFont, List.getElem?_replicate, if_pos hk]

/-- The glyph of a katakana character is not drawn: the text marks pixels for it, and
`WriteAscii` draws none. -/
theorem draws_fails_katakana : ¬ Draws barFont 0xb1 0 0 ⟨0, 0, 0⟩ := by
  intro h
  have hfits : bitsInt barFont.strayRun < 256 := by decide
  have hink : InOneInk ([] : List Write) ⟨0, 0, 0⟩ := fun w hw => absurd hw List.not_mem_nil
  have hglyph : barFont.glyphs[(0xb1 : BitVec 8).toNat]? = some barGlyph :=
    barFont_glyphs (by decide)
  have hblank := (draws_iff_covers hfits hglyph (writeAsciiIn_high (by decide)) hink).mp h
  exact absurd (covers_nil_iff.mp hblank 0 0) (by decide)

/-- The glyph of a letter is drawn as its text has it, since its character is below 128. -/
theorem draws_iff_letter : Draws barFont 0x41 0 0 ⟨0, 0, 0⟩ := by
  have hlength : (0x41 : BitVec 8).toNat < barFont.glyphs.length := by
    rw [barFont, List.length_replicate]
    decide
  have hdrawable : Drawable barFont 0x41 :=
    ⟨by decide, fun _ => Or.inl (by decide), fun h => absurd h (by decide)⟩
  exact (draws_iff barFont 0x41 hlength 0 0 ⟨0, 0, 0⟩).mpr hdrawable

end Mikanos
