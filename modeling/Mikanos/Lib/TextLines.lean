import Mathlib.Data.List.TakeWhile
import Mathlib.Tactic

/-!
# Lines of a text

A text is a list of characters.  `joinLines` puts a newline between the lines of a list,
`splitLines` cuts a text at every line boundary that Unicode knows, and `lstrip` drops the white
space a text begins with, across lines.

Lines without boundaries of their own come back from the text they were joined to, up to an
empty one at the end (`splitLines_joinLines`), and `lstrip` works on them line by line
(`lstrip_joinLines`).
-/

namespace TextLines

/-- The character is white space. -/
def isSpace (c : Char) : Bool :=
  let n := c.toNat
  decide (9 ≤ n ∧ n ≤ 13 ∨ 28 ≤ n ∧ n ≤ 32 ∨ n = 0x85 ∨ n = 0xa0 ∨ n = 0x1680 ∨
    0x2000 ≤ n ∧ n ≤ 0x200a ∨ n = 0x2028 ∨ n = 0x2029 ∨ n = 0x202f ∨ n = 0x205f ∨ n = 0x3000)

/-- The character ends a line. -/
def isLineBreak (c : Char) : Bool :=
  let n := c.toNat
  decide (10 ≤ n ∧ n ≤ 13 ∨ 28 ≤ n ∧ n ≤ 30 ∨ n = 0x85 ∨ n = 0x2028 ∨ n = 0x2029)

/-- A text without the white space it begins with. -/
def lstrip (text : List Char) : List Char := text.dropWhile isSpace

/-- The lines of a text, after a carriage return or not. -/
def splitLinesFrom : Bool → List Char → List (List Char)
  | _, [] => []
  | afterReturn, c :: text =>
      if afterReturn ∧ c = '\n' then splitLinesFrom false text
      else if isLineBreak c then [] :: splitLinesFrom (c = '\r') text
      else
        match splitLinesFrom false text with
        | [] => [[c]]
        | line :: lines => (c :: line) :: lines

/-- The lines of a text. -/
def splitLines (text : List Char) : List (List Char) := splitLinesFrom false text

/-- A text of the lines, with a newline between any two of them. -/
def joinLines (lines : List (List Char)) : List Char := List.intercalate ['\n'] lines

/-- The lines of a text without the white space it begins with. -/
def stripLines : List (List Char) → List (List Char)
  | [] => []
  | line :: lines => if line.all isSpace then stripLines lines else lstrip line :: lines

/-! ## Splitting -/

/-- The text is part of a line. -/
def Unbroken (line : List Char) : Prop := ∀ c ∈ line, isLineBreak c = false

instance (line : List Char) : Decidable (Unbroken line) :=
  List.decidableBAll (fun c => isLineBreak c = false) line

/-- The rest of a line without breaks has none either. -/
theorem Unbroken.tail {c : Char} {line : List Char} (h : Unbroken (c :: line)) : Unbroken line :=
  fun d hd => h d (List.mem_cons_of_mem c hd)

/-- A line that a newline ends is the first line of the text, and the other lines are those of
the rest. -/
theorem splitLines_append {line : List Char} (h : Unbroken line) (text : List Char) :
    splitLines (line ++ '\n' :: text) = line :: splitLines text := by
  induction line with
  | nil => rfl
  | cons c line ih =>
      have hc := h c List.mem_cons_self
      have hrest := ih h.tail
      unfold splitLines at hrest ⊢
      rw [List.cons_append, splitLinesFrom, if_neg (by simp), if_neg (by simp [hc]), hrest]

/-- A line at the end of a text counts without a newline behind it, unless it is empty. -/
theorem splitLines_last {line : List Char} (h : Unbroken line) (hne : line ≠ []) :
    splitLines line = [line] := by
  induction line with
  | nil => exact absurd rfl hne
  | cons c line ih =>
      have hc := h c List.mem_cons_self
      unfold splitLines at ih ⊢
      rw [splitLinesFrom, if_neg (by simp), if_neg (by simp [hc])]
      cases line with
      | nil => rfl
      | cons d line => rw [ih h.tail (List.cons_ne_nil d line)]

/-- **Joined lines come apart again**, by induction over the lines; only an empty line at the
end is lost, as nothing stands for it. -/
theorem splitLines_joinLines {lines : List (List Char)} (h : ∀ line ∈ lines, Unbroken line) :
    splitLines (joinLines lines) = lines ∨ splitLines (joinLines lines) ++ [[]] = lines := by
  unfold joinLines
  induction lines with
  | nil => exact Or.inl rfl
  | cons line lines ih =>
      have hline := h line List.mem_cons_self
      cases lines with
      | nil =>
          rw [List.intercalate_singleton]
          by_cases hne : line = []
          · exact Or.inr (by rw [hne]; rfl)
          · exact Or.inl (splitLines_last hline hne)
      | cons next lines =>
          rw [List.intercalate_cons_cons, List.append_assoc, List.singleton_append,
            splitLines_append hline]
          rcases ih fun l hl => h l (List.mem_cons_of_mem line hl) with hrest | hrest
          · exact Or.inl (congrArg (line :: ·) hrest)
          · exact Or.inr (congrArg (line :: ·) hrest)

/-! ## Stripping -/

/-- Of a line of blanks nothing is left. -/
theorem lstrip_of_all {line : List Char} (h : line.all isSpace = true) : lstrip line = [] :=
  List.dropWhile_eq_nil_iff.mpr fun c hc => List.all_eq_true.mp h c hc

/-- `lstrip` looks at the next line only if there are nothing but blanks in this one; otherwise
it stops within the line. -/
theorem lstrip_append (line text : List Char) : lstrip (line ++ '\n' :: text) =
    if line.all isSpace then lstrip text else lstrip line ++ '\n' :: text := by
  unfold lstrip
  rw [List.dropWhile_append]
  by_cases hall : line.all isSpace = true
  · rw [if_pos hall, if_pos (by rw [← lstrip, lstrip_of_all hall]; rfl)]
    rfl
  · have hne : (line.dropWhile isSpace).isEmpty = false := by
      rw [List.isEmpty_eq_false_iff]
      intro hnil
      exact hall (List.all_eq_true.mpr (List.dropWhile_eq_nil_iff.mp hnil))
    rw [if_neg hall, hne, if_neg (by decide)]

/-- **Stripping a text line by line**: the lines of blanks at the front go, the first other one
loses its blanks in front, and the rest is as it was. -/
theorem lstrip_joinLines (lines : List (List Char)) :
    lstrip (joinLines lines) = joinLines (stripLines lines) := by
  unfold joinLines
  induction lines with
  | nil => rfl
  | cons line lines ih =>
      cases lines with
      | nil =>
          rw [List.intercalate_singleton, stripLines]
          split
          · rename_i hall
            exact lstrip_of_all hall
          · exact List.intercalate_singleton.symm
      | cons next lines =>
          rw [List.intercalate_cons_cons, List.append_assoc, List.singleton_append, lstrip_append,
            stripLines, ih]
          split
          · rfl
          · rw [List.intercalate_cons_cons, List.append_assoc]
            rfl

/-- A line that begins with no white space stops the stripping. -/
theorem stripLines_of_head {c : Char} (hc : isSpace c = false) (line : List Char)
    (lines : List (List Char)) : stripLines ((c :: line) :: lines) = (c :: line) :: lines := by
  have hall : ¬ (c :: line).all isSpace = true := by simp [hc]
  rw [stripLines, if_neg hall, lstrip, List.dropWhile_cons_of_neg (by simp [hc])]

/-- Blank lines in front are dropped. -/
theorem stripLines_append {blank : List (List Char)} (h : ∀ line ∈ blank, line.all isSpace = true)
    (lines : List (List Char)) : stripLines (blank ++ lines) = stripLines lines := by
  induction blank with
  | nil => rfl
  | cons line blank ih =>
      rw [List.cons_append, stripLines, if_pos (h line List.mem_cons_self)]
      exact ih fun l hl => h l (List.mem_cons_of_mem line hl)

/-- Stripping a text does not break its lines: no line has a newline in it afterwards if none
had before. -/
theorem unbroken_stripLines {lines : List (List Char)} (h : ∀ line ∈ lines, Unbroken line) :
    ∀ line ∈ stripLines lines, Unbroken line := by
  induction lines with
  | nil => exact h
  | cons line lines ih =>
      have hrest := fun l hl => h l (List.mem_cons_of_mem line hl)
      rw [stripLines]
      split
      · exact ih hrest
      · intro l hl
        rcases List.mem_cons.mp hl with rfl | hl
        · exact fun c hc => h line List.mem_cons_self c (List.dropWhile_subset _ hc)
        · exact hrest l hl

end TextLines
