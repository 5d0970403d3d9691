import Mikanos.Lib.TextLines

/-!
# The font compiler

`makefont.py` turns the text of a font into the table that `font.cpp` draws from: every line
that begins with a pattern of `.`, `*` and `@` becomes one byte, and all other lines are
skipped.

A font text is a list of glyphs, each a header line, sixteen lines of eight marks, and blank
lines.  Its table has the lines of the glyphs one after the other (`compile_text`).  There is
one exception: `compile` strips the white space that the text begins with, and a header that is
indented and goes on like a pattern then counts as a line as well.
-/

namespace Mikanos

open TextLines

/-! ## The compiler -/

/-- The characters of `BITMAP_PATTERN`. -/
def isMark (c : Char) : Bool := c = '.' || c = '*' || c = '@'

/-- `m.group(1)`, which is empty if the line does not match. -/
def bitmapRun (line : List Char) : List Char := line.takeWhile isMark

/-- One of the `bits`. -/
def bitOf (x : Char) : Nat := if x = '.' then 0 else 1

/-- `bits_int`.  The first step of the reduction from 0 gives the first bit. -/
def bitsInt (run : List Char) : Nat := (run.map bitOf).foldl (fun a b => 2 * a + b) 0

/-- The loop of `compile`; `none` for the `OverflowError` of `to_bytes`. -/
def compileLines : List (List Char) → Option (List (BitVec 8))
  | [] => some []
  | line :: lines =>
      let run := bitmapRun line
      if run = [] then compileLines lines
      else if bitsInt run < 256 then
        (compileLines lines).map (BitVec.ofNat 8 (bitsInt run) :: ·)
      else none

/-- `compile(src)`. -/
def compile (src : List Char) : Option (List (BitVec 8)) := compileLines (splitLines (lstrip src))

/-! ## Font texts -/

/-- A character of a glyph. -/
inductive Mark where
  | dot
  | star
  | atSign
  deriving DecidableEq, Repr

def Mark.char : Mark → Char
  | .dot => '.'
  | .star => '*'
  | .atSign => '@'

/-- A line of white space. -/
def Blank (line : List Char) : Prop := line.all isSpace = true ∧ Unbroken line

instance (line : List Char) : Decidable (Blank line) := inferInstanceAs (Decidable (_ ∧ _))

/-- A glyph and the blank lines behind it. -/
structure GlyphBlock where
  header : List Char
  rows : Fin 16 → Fin 8 → Mark
  blanks : List (List Char)
  headerLine : Unbroken header
  headerStart : ∀ c ∈ header.head?, isMark c = false
  blank : ∀ line ∈ blanks, Blank line

/-- The line `dy` of a glyph. -/
def GlyphBlock.rowLine (g : GlyphBlock) (dy : Fin 16) : List Char :=
  List.ofFn fun dx => (g.rows dy dx).char

/-- The lines of a glyph, with its header and the blank lines. -/
def GlyphBlock.lines (g : GlyphBlock) : List (List Char) :=
  g.header :: (List.ofFn g.rowLine ++ g.blanks)

/-- The source of a font. -/
structure FontSource where
  leading : List (List Char)
  glyphs : List GlyphBlock
  leadingBlank : ∀ line ∈ leading, Blank line
  count : glyphs.length ≤ 256

def FontSource.lines (f : FontSource) : List (List Char) :=
  f.leading ++ f.glyphs.flatMap GlyphBlock.lines

/-- The text in the file. -/
def FontSource.text (f : FontSource) : List Char := joinLines f.lines

/-- The byte of a line of a glyph. -/
def GlyphBlock.rowByte (g : GlyphBlock) (dy : Fin 16) : BitVec 8 :=
  BitVec.ofNat 8 (bitsInt (g.rowLine dy))

/-- The bytes of all glyphs. -/
def FontSource.glyphLines (f : FontSource) : List (BitVec 8) :=
  f.glyphs.flatMap fun g => List.ofFn g.rowByte

/-- The pattern that is left of the first header without the white space in front of it. -/
def FontSource.strayRun (f : FontSource) : List Char :=
  match f.glyphs with
  | [] => []
  | g :: _ => bitmapRun (lstrip g.header)

/-! ## Single lines -/

/-- The characters that are drawn are the ones that the script looks for in `hankaku.txt`. -/
theorem isMark_char (x : Mark) : isMark x.char = true := by
  cases x <;> rfl

/-- A dot is bit 0, and a star as well as an at sign is bit 1. -/
theorem bitOf_char (x : Mark) : bitOf x.char = if x = .dot then 0 else 1 := by
  cases x <;> rfl

/-- There are three such characters. -/
theorem isMark_cases {c : Char} (h : isMark c = true) : c = '.' ∨ c = '*' ∨ c = '@' := by
  simpa [isMark, or_assoc] using h

/-- `strip` takes none of them away at the ends of a line. -/
theorem isSpace_of_isMark {c : Char} (h : isMark c = true) : isSpace c = false := by
  rcases isMark_cases h with rfl | rfl | rfl
  · decide
  · decide
  · decide

/-- `splitlines` does not break a line there. -/
theorem isLineBreak_of_isMark {c : Char} (h : isMark c = true) : isLineBreak c = false := by
  rcases isMark_cases h with rfl | rfl | rfl
  · decide
  · decide
  · decide

/-- The number that `int(bits, 2)` makes of a row has as many bits as the row has characters, so
a row of eight fits in a byte. -/
theorem foldl_bits_lt (bits : List Nat) (h : ∀ b ∈ bits, b < 2) :
    bits.foldl (fun a b => 2 * a + b) 0 < 2 ^ bits.length := by
  induction bits using List.reverseRecOn with
  | nil => exact Nat.one_pos
  | append_singleton bits b ih =>
      have hrest := ih fun c hc => h c (List.mem_append_left _ hc)
      have hb := h b (List.mem_append_right _ (List.mem_singleton_self b))
      rw [List.foldl_append, List.length_append, List.length_singleton, Nat.pow_succ]
      simp only [List.foldl_cons, List.foldl_nil]
      omega

/-- **The bits of a pattern**, the first one highest: bit `n - 1 - i` of the number is set
exactly if the character at `i` is a one, by induction over the pattern. -/
theorem testBit_foldl_bits (bits : List Nat) (h : ∀ b ∈ bits, b < 2) :
    ∀ i, i < bits.length →
      (bits.foldl (fun a b => 2 * a + b) 0).testBit (bits.length - 1 - i) =
        decide (bits[i]? = some 1) := by
  induction bits using List.reverseRecOn with
  | nil => exact fun i hi => absurd hi (Nat.not_lt_zero i)
  | append_singleton bits b ih =>
      have hrest := ih fun c hc => h c (List.mem_append_left _ hc)
      have hb := h b (List.mem_append_right _ (List.mem_singleton_self b))
      intro i hi
      rw [List.length_append, List.length_singleton] at hi
      rw [List.foldl_append, List.length_append, List.length_singleton]
      simp only [List.foldl_cons, List.foldl_nil]
      by_cases hlast : i = bits.length
      · subst hlast
        have hzero : bits.length + 1 - 1 - bits.length = 0 := by omega
        have hmod : (2 * List.foldl (fun a b => 2 * a + b) 0 bits + b) % 2 = b := by omega
        rw [List.getElem?_concat_length, hzero, Nat.testBit_zero, hmod]
        simp
      · have hin : i < bits.length := by omega
        have hsucc : bits.length + 1 - 1 - i = bits.length - 1 - i + 1 := by omega
        have hdiv : (2 * List.foldl (fun a b => 2 * a + b) 0 bits + b) / 2 =
            List.foldl (fun a b => 2 * a + b) 0 bits := by omega
        rw [List.getElem?_append_left hin, hsucc, Nat.testBit_succ, hdiv]
        exact hrest i hin

/-- The digits of this number are 0 and 1. -/
theorem bitOf_lt (run : List Char) : ∀ b ∈ run.map bitOf, b < 2 := by
  intro b hb
  obtain ⟨c, -, rfl⟩ := List.mem_map.mp hb
  unfold bitOf
  split
  · decide
  · decide

variable (g : GlyphBlock) (dy : Fin 16)

/-- The line in front of a glyph is no row of the glyph: the expression of the script does not
match there. -/
theorem bitmapRun_header : bitmapRun g.header = [] := by
  have hstart := g.headerStart
  cases hheader : g.header with
  | nil => rfl
  | cons c line =>
      rw [hheader] at hstart
      have hc := hstart c rfl
      exact List.takeWhile_cons_of_neg (by simp [hc])

/-- The rows of a glyph consist of marks. -/
theorem mem_rowLine {c : Char} (h : c ∈ g.rowLine dy) : isMark c = true := by
  obtain ⟨dx, rfl⟩ := (List.mem_ofFn' _ _).mp h
  exact isMark_char _

/-- A row matches as a whole. -/
theorem bitmapRun_rowLine : bitmapRun (g.rowLine dy) = g.rowLine dy :=
  List.takeWhile_eq_self_iff.mpr fun _ hc => mem_rowLine g dy hc

/-- No row is empty, so `compile` finds a match in each of the 16 rows. -/
theorem rowLine_ne_nil : g.rowLine dy ≠ [] := by
  intro h
  have hlength := congrArg List.length h
  rw [GlyphBlock.rowLine, List.length_ofFn] at hlength
  cases hlength

/-- **A row is a byte**: eight marks make a number below 256, and `struct.pack` accepts it. -/
theorem bitsInt_rowLine_lt : bitsInt (g.rowLine dy) < 256 := by
  have hlt := foldl_bits_lt ((g.rowLine dy).map bitOf) (bitOf_lt _)
  rwa [List.length_map, GlyphBlock.rowLine, List.length_ofFn] at hlt

/-- **A bit of a byte is a mark of its line**: bit `7 - dx` of the byte that the script writes
is set exactly if the text has something other than a dot in column `dx`. -/
theorem getLsbD_rowByte (dx : Fin 8) :
    (g.rowByte dy).getLsbD (7 - dx) = decide (g.rows dy dx ≠ .dot) := by
  have hlength : ((g.rowLine dy).map bitOf).length = 8 := by
    rw [List.length_map, GlyphBlock.rowLine, List.length_ofFn]
  have hbit := testBit_foldl_bits ((g.rowLine dy).map bitOf) (bitOf_lt _) dx
    (by rw [hlength]; exact dx.isLt)
  have hat : ((g.rowLine dy).map bitOf)[dx.val]? =
      some (if g.rows dy dx = .dot then 0 else 1) := by
    rw [List.getElem?_map, GlyphBlock.rowLine, List.getElem?_ofFn, dif_pos dx.isLt,
      Option.map_some, bitOf_char]
  have hlow : 7 - dx.val < 8 := by omega
  rw [hlength, hat] at hbit
  rw [GlyphBlock.rowByte, BitVec.getLsbD_ofNat, decide_eq_true hlow, Bool.true_and]
  refine hbit.trans ?_
  by_cases hdot : g.rows dy dx = .dot
  · simp [hdot]
  · simp [hdot]

/-! ## The whole text -/

/-- A line that matches nothing leaves no byte. -/
theorem compileLines_cons_skip {line : List Char} (h : bitmapRun line = [])
    (lines : List (List Char)) : compileLines (line :: lines) = compileLines lines := by
  rw [compileLines, if_pos h]

/-- Lines that match nothing leave no byte. -/
theorem compileLines_skip {lines : List (List Char)}
    (h : ∀ line ∈ lines, bitmapRun line = []) (rest : List (List Char)) :
    compileLines (lines ++ rest) = compileLines rest := by
  induction lines with
  | nil => rfl
  | cons line lines ih =>
      rw [List.cons_append, compileLines_cons_skip (h line List.mem_cons_self)]
      exact ih fun l hl => h l (List.mem_cons_of_mem line hl)

/-- In a line of blanks there is nothing to match, which is why the lines between two glyphs do
no harm. -/
theorem bitmapRun_of_all_space {line : List Char} (h : line.all isSpace = true) :
    bitmapRun line = [] := by
  cases line with
  | nil => rfl
  | cons c line =>
      have hc : isSpace c = true := List.all_eq_true.mp h c List.mem_cons_self
      have hmark : ¬ isMark c = true := fun hm => by
        rw [isSpace_of_isMark hm] at hc
        cases hc
      exact List.takeWhile_cons_of_neg hmark

/-- The lines of a glyph leave their bytes, one for each line and in the order of the lines, in
front of what the rest of the file leaves. -/
theorem compileLines_rows (dys : List (Fin 16)) (rest : List (List Char)) :
    compileLines (dys.map g.rowLine ++ rest) =
      (compileLines rest).map (dys.map g.rowByte ++ ·) := by
  induction dys with
  | nil =>
      change compileLines rest = _
      cases compileLines rest with
      | none => rfl
      | some bytes => rfl
  | cons dy dys ih =>
      rw [List.map_cons, List.cons_append, compileLines, bitmapRun_rowLine,
        if_neg (rowLine_ne_nil g dy), if_pos (bitsInt_rowLine_lt g dy), ih, Option.map_map]
      rfl

/-- A glyph behind its header. -/
theorem compileLines_body (rest : List (List Char)) :
    compileLines (List.ofFn g.rowLine ++ g.blanks ++ rest) =
      (compileLines rest).map (List.ofFn g.rowByte ++ ·) := by
  have hblanks := @compileLines_skip g.blanks
    (fun line hl => bitmapRun_of_all_space (g.blank line hl).1) rest
  rw [List.append_assoc, List.ofFn_eq_map, compileLines_rows, hblanks, List.ofFn_eq_map]

/-- **The compiler on glyphs**: by induction over the glyphs, the bytes of one follow those of
the one before, 16 each, in the order of the file. -/
theorem compileLines_glyphs (glyphs : List GlyphBlock) :
    compileLines (glyphs.flatMap GlyphBlock.lines) =
      some (glyphs.flatMap fun g => List.ofFn g.rowByte) := by
  induction glyphs with
  | nil => rfl
  | cons g glyphs ih =>
      rw [List.flatMap_cons, List.flatMap_cons, GlyphBlock.lines, List.cons_append,
        compileLines_cons_skip (bitmapRun_header g), compileLines_body, ih]
      rfl

variable (f : FontSource)

/-- No line of the file contains a line break, so joining the lines to a text and splitting it
again gives the lines back. -/
theorem unbroken_lines : ∀ line ∈ f.lines, Unbroken line := by
  intro line hline
  rcases List.mem_append.mp hline with hline | hline
  · exact (f.leadingBlank line hline).2
  · obtain ⟨g, -, hline⟩ := List.mem_flatMap.mp hline
    rcases List.mem_cons.mp hline with rfl | hline
    · exact g.headerLine
    · rcases List.mem_append.mp hline with hline | hline
      · obtain ⟨dy, rfl⟩ := (List.mem_ofFn' _ _).mp hline
        exact fun c hc => isLineBreak_of_isMark (mem_rowLine g dy hc)
      · exact (g.blank line hline).2

/-- A line at the end that matches nothing leaves no byte. -/
theorem compileLines_concat {line : List Char} (h : bitmapRun line = [])
    (lines : List (List Char)) : compileLines (lines ++ [line]) = compileLines lines := by
  induction lines with
  | nil => exact compileLines_cons_skip h []
  | cons first lines ih => rw [List.cons_append, compileLines, compileLines, ih]

/-- The lines of a text compile as the text does. -/
theorem compileLines_splitLines {lines : List (List Char)} (h : ∀ line ∈ lines, Unbroken line) :
    compileLines (splitLines (joinLines lines)) = compileLines lines := by
  rcases splitLines_joinLines h with hsame | hlast
  · rw [hsame]
  · have hempty : bitmapRun [] = [] := rfl
    rw [← compileLines_concat hempty, hlast]

/-- Stripping leaves the rows of a glyph as they are, for they have no blanks at the ends. -/
theorem stripLines_body (rest : List (List Char)) :
    stripLines (List.ofFn g.rowLine ++ g.blanks ++ rest) =
      List.ofFn g.rowLine ++ g.blanks ++ rest := by
  obtain ⟨c, line, hrow⟩ := List.exists_cons_of_ne_nil (rowLine_ne_nil g 0)
  have hmark : isMark c = true := mem_rowLine g 0 (hrow ▸ List.mem_cons_self)
  rw [List.ofFn_succ, List.cons_append, List.cons_append, hrow]
  exact stripLines_of_head (isSpace_of_isMark hmark) _ _

/-- What stands in front of the first glyph's lines once the text is stripped. -/
theorem compileLines_first (rest : List (List Char)) :
    compileLines (stripLines (g.header :: (List.ofFn g.rowLine ++ g.blanks ++ rest))) =
      compileLines (lstrip g.header :: (List.ofFn g.rowLine ++ g.blanks ++ rest)) := by
  rw [stripLines]
  split
  · rename_i hall
    rw [stripLines_body, lstrip_of_all hall, compileLines_cons_skip rfl]
  · rfl

/-- **The table of a font**: the bytes of its glyphs, behind the one of an indented header that
goes on like a pattern. -/
theorem compile_text : compile f.text =
    if f.strayRun = [] then some f.glyphLines
    else if bitsInt f.strayRun < 256 then
      some (BitVec.ofNat 8 (bitsInt f.strayRun) :: f.glyphLines)
    else none := by
  have hlines : compile f.text = compileLines (stripLines (f.glyphs.flatMap GlyphBlock.lines)) := by
    rw [compile, FontSource.text, lstrip_joinLines,
      compileLines_splitLines (unbroken_stripLines (unbroken_lines f)), FontSource.lines,
      stripLines_append fun line hline => (f.leadingBlank line hline).1]
  rw [hlines, FontSource.strayRun, FontSource.glyphLines]
  cases f.glyphs with
  | nil => rfl
  | cons g glyphs =>
      rw [List.flatMap_cons, GlyphBlock.lines, List.cons_append, compileLines_first, compileLines,
        compileLines_body, compileLines_glyphs, List.flatMap_cons]
      rfl

end Mikanos
