import Mikanos.Graphics.PixelWriter
import Mikanos.Error

/-!
# The font

`font.cpp` draws characters from a table of bitmaps linked into the kernel: 256
glyphs of sixteen bytes, one byte a line and the leftmost pixel in the highest
bit.  The table is built from `hankaku.txt`; its contents are a parameter here,
its size is not.

A `char` is signed on the target.  `GetFont` converts it to `unsigned int`, so a
code from 128 on becomes an index behind the table, and nothing is drawn
(`getFont_eq`).  A string is drawn up to its terminating NUL, so what it shows
is the text in front of that (`writeString_eq`, `covers_textWrites`).
-/

namespace Mikanos

open Canvas

/-- `_binary_hankaku_bin_size`: 256 glyphs of 16 bytes. -/
def hankakuBinSize : Nat := 4096

/-- The table at `_binary_hankaku_bin_start`. -/
abbrev HankakuBin := Vector (BitVec 8) hankakuBinSize

/-- A pointer to sixteen bytes of the table. -/
structure Glyph where
  offset : Nat
  fits : offset + 16 ≤ hankakuBinSize

/-- Sixteen times a 32-bit number is a multiple of sixteen, also modulo 2^32. -/
theorem glyph_fits {c : BitVec 8} (h : ¬ hankakuBinSize ≤ (16 * c.signExtend 32).toNat) :
    (16 * c.signExtend 32).toNat + 16 ≤ hankakuBinSize := by
  have hmul : (16 * c.signExtend 32).toNat = 16 * (c.signExtend 32).toNat % 2 ^ 32 := by
    simp [BitVec.toNat_mul]
  unfold hankakuBinSize at *
  omega

/-- `GetFont(c)`. -/
def getFont (c : BitVec 8) : Option Glyph :=
  let index : BitVec 32 := 16 * c.signExtend 32
  if h : hankakuBinSize ≤ index.toNat then none else some ⟨index.toNat, glyph_fits h⟩

/-- `font[dy]`. -/
def Glyph.line (hankaku : HankakuBin) (g : Glyph) (dy : Fin 16) : BitVec 8 :=
  hankaku.get ⟨g.offset + dy, by have := g.fits; omega⟩

/-- `(font[dy] << dx) & 0x80u`. -/
def Glyph.bit (hankaku : HankakuBin) (g : Glyph) (dx : Nat) (dy : Fin 16) : Bool :=
  (((g.line hankaku dy).setWidth 32 <<< dx) &&& 0x80#32) ≠ 0

/-- `WriteAscii(writer, x, y, c, color)`. -/
def writeAscii (hankaku : HankakuBin) (x y : Int) (c : BitVec 8) (color : PixelColor) :
    List Write :=
  match getFont c with
  | none => []
  | some font =>
      (List.finRange 16).flatMap fun dy => (List.range 8).flatMap fun dx =>
        if font.bit hankaku dx dy then [write (x + dx) (y + (dy : Nat)) color] else []

/-- `WriteString(writer, x, y, s, color)` from its index `i` on: `s` lists the
bytes from `s[i]` to the end of the array. -/
def writeStringFrom (hankaku : HankakuBin) (x y : Int) (color : PixelColor) :
    List (BitVec 8) → Int → Except Fault (List Write)
  | [], _ => .error .outOfBounds
  | c :: s, i =>
      if c = 0 then .ok []
      else (writeStringFrom hankaku x y color s (i + 1)).map
        (writeAscii hankaku (x + 8 * i) y c color ++ ·)

/-- `WriteString(writer, x, y, s, color)`. -/
def writeString (hankaku : HankakuBin) (x y : Int) (s : List (BitVec 8)) (color : PixelColor) :
    Except Fault (List Write) :=
  writeStringFrom hankaku x y color s 0

/-! ## What a character shows -/

/-- The glyph of the code `c` is set `dx` pixels from its left edge and `dy`
below its upper one.  Codes from 128 on have no glyph. -/
def lit (hankaku : HankakuBin) (c : BitVec 8) (dx dy : Nat) : Bool :=
  if h : c.toNat < 128 ∧ dy < 16 then
    dx < 8 && (hankaku.get ⟨16 * c.toNat + dy, by unfold hankakuBinSize; omega⟩).getLsbD (7 - dx)
  else false

variable (hankaku : HankakuBin)

/-- The characters that have a glyph, and where it is. -/
theorem getFont_eq (c : BitVec 8) :
    (getFont c).map Glyph.offset = if c.toNat < 128 then some (16 * c.toNat) else none := by
  revert c
  decide +kernel

/-- The mask picks the bit of the pixel. -/
theorem mask_eq (line : BitVec 8) {dx : Nat} (hdx : dx < 8) :
    decide (((line.setWidth 32 <<< dx) &&& 0x80#32) ≠ 0) = line.getLsbD (7 - dx) := by
  revert line
  have hall : ∀ dx : Fin 8, ∀ b : BitVec 8,
      decide (((b.setWidth 32 <<< dx.val) &&& 0x80#32) ≠ 0) = b.getLsbD (7 - dx.val) := by
    decide +kernel
  exact hall ⟨dx, hdx⟩

/-- A pixel of a glyph is one bit of one byte, the leftmost the highest. -/
theorem bit_eq (g : Glyph) {dx : Nat} (hdx : dx < 8) (dy : Fin 16) :
    g.bit hankaku dx dy = (g.line hankaku dy).getLsbD (7 - dx) :=
  mask_eq (g.line hankaku dy) hdx

/-- A character is drawn in the colour it is given; pixels that are not set in its glyph are not
written at all. -/
theorem inOneInk_writeAscii (x y : Int) (c : BitVec 8) (color : PixelColor) :
    InOneInk (writeAscii hankaku x y c color) color := by
  unfold writeAscii
  split
  case h_1 => exact fun w hw => absurd hw List.not_mem_nil
  case h_2 font _ =>
      refine InOneInk.flatMap fun dy _ => InOneInk.flatMap fun dx _ => ?_
      split
      · exact inOneInk_write _ _ color
      · exact fun w hw => absurd hw List.not_mem_nil

/-- **A character covers the pixels of its glyph**: the two loops call `Write` exactly where the
bit of the line is set, for a character that the table has; for another one they do not run. -/
theorem covers_writeAscii {x y : Int} {c : BitVec 8} {color : PixelColor} {p : Int × Int} :
    Covers (writeAscii hankaku x y c color) p ↔
      ∃ dx < 8, ∃ dy < 16, p = (x + (dx : Nat), y + (dy : Nat)) ∧
        lit hankaku c dx dy = true := by
  have hfont := getFont_eq c
  unfold writeAscii
  split
  case h_1 hnone =>
      have hcode : ¬ c.toNat < 128 := by
        intro hcode
        rw [hnone, if_pos hcode] at hfont
        cases hfont
      constructor
      · rintro ⟨w, hw, -⟩
        exact absurd hw List.not_mem_nil
      · rintro ⟨dx, -, dy, -, -, hlit⟩
        simp [lit, hcode] at hlit
  case h_2 font hsome =>
      have hcode : c.toNat < 128 := by
        by_contra hcode
        rw [hsome, if_neg hcode] at hfont
        cases hfont
      have hoffset : font.offset = 16 * c.toNat := by
        rw [hsome, if_pos hcode] at hfont
        exact Option.some.inj hfont
      have hlit : ∀ dx < 8, ∀ dy : Fin 16,
          font.bit hankaku dx dy = lit hankaku c dx dy := by
        intro dx hdx dy
        rw [bit_eq hankaku font hdx dy]
        simp [lit, hcode, hdx, Glyph.line, hoffset]
      simp only [covers_flatMap, List.mem_finRange, true_and, List.mem_range]
      constructor
      · rintro ⟨dy, dx, hdx, hcov⟩
        split at hcov
        case isTrue hbit =>
            exact ⟨dx, hdx, dy, dy.isLt, covers_write.mp hcov, by rw [← hlit dx hdx dy, hbit]⟩
        case isFalse =>
            obtain ⟨w, hw, -⟩ := hcov
            exact absurd hw List.not_mem_nil
      · rintro ⟨dx, hdx, dy, hdy, hp, hl⟩
        refine ⟨⟨dy, hdy⟩, dx, hdx, ?_⟩
        rw [if_pos (by rw [hlit dx hdx ⟨dy, hdy⟩]; exact hl)]
        exact covers_write.mpr hp

/-! ## What a text shows -/

/-- The calls made for the characters of a text from its index `i` on. -/
def textWrites (x y : Int) (color : PixelColor) : List (BitVec 8) → Int → List Write
  | [], _ => []
  | c :: s, i => writeAscii hankaku (x + 8 * i) y c color ++ textWrites x y color s (i + 1)

/-- A text is set `dx` pixels from its left edge and `dy` below its upper one. -/
def inked (s : List (BitVec 8)) (dx dy : Nat) : Bool :=
  match s[dx / 8]? with
  | some c => lit hankaku c (dx % 8) dy
  | none => false

/-- The first eight columns of a text are those of its first character. -/
theorem inked_cons_of_lt (c : BitVec 8) (s : List (BitVec 8)) {dx : Nat} (hdx : dx < 8)
    (dy : Nat) : inked hankaku (c :: s) dx dy = lit hankaku c dx dy := by
  simp [inked, Nat.div_eq_of_lt hdx, Nat.mod_eq_of_lt hdx]

/-- From the ninth column on a text looks like what follows its first character, eight columns
further left. -/
theorem inked_cons_add (c : BitVec 8) (s : List (BitVec 8)) (dx dy : Nat) :
    inked hankaku (c :: s) (dx + 8) dy = inked hankaku s dx dy := by
  simp [inked]

/-- A pixel of a glyph lies in its cell. -/
theorem lit_bounds {c : BitVec 8} {dx dy : Nat} (h : lit hankaku c dx dy = true) :
    dx < 8 ∧ dy < 16 := by
  unfold lit at h
  split at h
  case isTrue hc =>
      simp only [Bool.and_eq_true, decide_eq_true_eq] at h
      exact ⟨h.1, hc.2⟩
  case isFalse => cases h

/-- A pixel of a text lies in the cell of one of its characters. -/
theorem inked_bounds {s : List (BitVec 8)} {dx dy : Nat} (h : inked hankaku s dx dy = true) :
    dx / 8 < s.length ∧ dy < 16 := by
  unfold inked at h
  split at h
  case h_1 c hc => exact ⟨(List.getElem?_eq_some_iff.mp hc).1, (lit_bounds hankaku h).2⟩
  case h_2 => cases h

/-- One more character adds the pixels of its own glyph, in the eight columns behind the text,
and changes no pixel of the text before it. -/
theorem inked_concat (s : List (BitVec 8)) (c : BitVec 8) (dx dy : Nat) :
    inked hankaku (s ++ [c]) dx dy
      = if dx / 8 = s.length then lit hankaku c (dx % 8) dy else inked hankaku s dx dy := by
  unfold inked
  by_cases h : dx / 8 = s.length
  · rw [if_pos h, h, List.getElem?_concat_length]
  · rw [if_neg h]
    rcases Nat.lt_or_gt_of_ne h with hlt | hgt
    · rw [List.getElem?_append_left hlt]
    · have hout : s.length + 1 ≤ dx / 8 := hgt
      rw [List.getElem?_eq_none (by simpa using hout), List.getElem?_eq_none (by omega)]

/-- A text is drawn in one colour, since each of its characters is, by induction over the
characters. -/
theorem inOneInk_textWrites (x y : Int) (color : PixelColor) (s : List (BitVec 8)) (i : Int) :
    InOneInk (textWrites hankaku x y color s i) color := by
  induction s generalizing i with
  | nil => exact fun w hw => absurd hw List.not_mem_nil
  | cons c s ih =>
      intro w hw
      rcases List.mem_append.mp hw with hw | hw
      · exact inOneInk_writeAscii hankaku _ y c color w hw
      · exact ih (i + 1) w hw

/-- **A text covers the pixels of its characters**, eight columns each: the character in column
`i` starts `8 * i` pixels to the right, and no two characters share a pixel. -/
theorem covers_textWrites {x y : Int} {color : PixelColor} {s : List (BitVec 8)} {i : Int}
    {p : Int × Int} :
    Covers (textWrites hankaku x y color s i) p ↔
      ∃ dx dy : Nat, p = (x + 8 * i + dx, y + dy) ∧ inked hankaku s dx dy = true := by
  induction s generalizing i with
  | nil =>
      constructor
      · intro ⟨w, hw, _⟩
        exact absurd hw List.not_mem_nil
      · intro ⟨dx, dy, _, h⟩
        simp [inked] at h
  | cons c s ih =>
      rw [textWrites, covers_append, ih, covers_writeAscii]
      constructor
      · intro h
        rcases h with ⟨dx, hdx, dy, _, hp, hlit⟩ | ⟨dx, dy, hp, hink⟩
        · exact ⟨dx, dy, hp, by rw [inked_cons_of_lt hankaku c s hdx, hlit]⟩
        · refine ⟨dx + 8, dy, ?_, by rw [inked_cons_add, hink]⟩
          rw [hp]
          congr 1
          push_cast
          ring
      · intro ⟨dx, dy, hp, hink⟩
        by_cases hdx : dx < 8
        · rw [inked_cons_of_lt hankaku c s hdx] at hink
          exact Or.inl ⟨dx, hdx, dy, (lit_bounds hankaku hink).2, hp, hink⟩
        · obtain ⟨k, rfl⟩ : ∃ k, dx = k + 8 := ⟨dx - 8, by omega⟩
          rw [inked_cons_add] at hink
          refine Or.inr ⟨k, dy, ?_, hink⟩
          rw [hp]
          congr 1
          push_cast
          ring

/-- **The loop of `WriteString`** ends at the terminating zero, and draws the characters in
front of it. -/
theorem writeStringFrom_eq (x y : Int) (color : PixelColor) {s : List (BitVec 8)}
    (hs : 0 ∉ s) (rest : List (BitVec 8)) (i : Int) :
    writeStringFrom hankaku x y color (s ++ 0 :: rest) i
      = .ok (textWrites hankaku x y color s i) := by
  induction s generalizing i with
  | nil => simp [writeStringFrom, textWrites]
  | cons c s ih =>
      have hc : c ≠ 0 := fun h => hs (h ▸ List.mem_cons_self)
      have hrest : 0 ∉ s := fun h => hs (List.mem_cons_of_mem c h)
      rw [List.cons_append, writeStringFrom, if_neg hc, ih hrest]
      rfl

/-- **A string is drawn up to its NUL**, whatever stands behind it. -/
theorem writeString_eq (x y : Int) (color : PixelColor) {s : List (BitVec 8)} (hs : 0 ∉ s)
    (rest : List (BitVec 8)) :
    writeString hankaku x y (s ++ 0 :: rest) color
      = .ok (textWrites hankaku x y color s 0) :=
  writeStringFrom_eq hankaku x y color hs rest 0

end Mikanos
