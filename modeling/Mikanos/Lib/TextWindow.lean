import Mathlib.Data.List.DropRight
import Mathlib.Tactic

/-!
# The last lines of a text

A window of a given height on a text that grows at its end: the line being
written and the lines above it, of which only as many are kept as the window
has room for.  `type` writes one more symbol, `feed` begins a new line and
lets the topmost one go when the window is full.

`ofText_lines` says what the window amounts to: the text split at its line
breaks, and of these lines the last ones.
-/

namespace Mikanos

/-- The lines of a window, the current one apart. -/
structure TextWindow (α : Type) where
  above : List (List α)
  current : List α

namespace TextWindow

variable {α : Type}

/-- The window before anything is written. -/
def empty : TextWindow α := ⟨[], []⟩

/-- The lines from top to bottom. -/
def lines (w : TextWindow α) : List (List α) := w.above ++ [w.current]

/-- One more symbol on the current line. -/
def type (w : TextWindow α) (c : α) : TextWindow α := { w with current := w.current ++ [c] }

/-- A new line, with room for `room` lines above it. -/
def feed (room : Nat) (w : TextWindow α) : TextWindow α := ⟨w.lines.rtake room, []⟩

/-- A typed character is the last one of the current line. -/
@[simp] theorem current_type (w : TextWindow α) (c : α) :
    (w.type c).current = w.current ++ [c] := rfl

/-- After a line break the current line is empty. -/
@[simp] theorem current_feed (room : Nat) (w : TextWindow α) : (w.feed room).current = [] := rfl

/-- As long as there is room above, a new line lets no line go: the lines above it are all the
lines there were. -/
theorem above_feed_of_room {room : Nat} {w : TextWindow α} (h : w.above.length < room) :
    (w.feed room).above = w.lines := by
  have hnone : w.lines.length - room = 0 := by
    simp only [lines, List.length_append, List.length_singleton]
    omega
  simp only [feed, List.rtake, hnone, List.drop_zero]

/-- In a full window, a new line lets the topmost one go. -/
theorem above_feed_of_full {room : Nat} {w : TextWindow α} (h : w.above.length = room) :
    (w.feed room).above = w.lines.drop 1 := by
  have hone : w.lines.length - room = 1 := by
    simp only [lines, List.length_append, List.length_singleton]
    omega
  simp only [feed, List.rtake, hone]

/-- A window never holds more than it has room for. -/
theorem length_above_feed_le (room : Nat) (w : TextWindow α) :
    (w.feed room).above.length ≤ room := by
  simp only [feed, List.rtake, List.length_drop]
  omega

/-- The line at height `i` from the top; empty where the window shows none. -/
def line (w : TextWindow α) (i : Nat) : List α := (w.lines[i]?).getD []

/-- The lines above the current one stay as they were finished. -/
theorem line_of_lt {w : TextWindow α} {i : Nat} (h : i < w.above.length) :
    w.line i = (w.above[i]?).getD [] := by
  rw [line, lines, List.getElem?_append_left h]

/-- The current line comes right below them. -/
theorem line_current (w : TextWindow α) : w.line w.above.length = w.current := by
  rw [line, lines, List.getElem?_concat_length]
  rfl

/-- Below the current line there is nothing yet. -/
theorem line_of_gt {w : TextWindow α} {i : Nat} (h : w.above.length < i) : w.line i = [] := by
  have hout : w.lines.length ≤ i := by
    simp only [lines, List.length_append, List.length_singleton]
    omega
  rw [line, List.getElem?_eq_none hout]
  rfl

/-- Writing a symbol lengthens the current line, which stands below the others, and changes no
other line. -/
theorem line_type (w : TextWindow α) (c : α) (i : Nat) :
    (w.type c).line i = if i = w.above.length then w.current ++ [c] else w.line i := by
  by_cases h : i = w.above.length
  · subst h
    rw [if_pos rfl]
    exact line_current (w.type c)
  · rw [if_neg h]
    rcases Nat.lt_or_gt_of_ne h with hlt | hgt
    · rw [line_of_lt hlt]
      exact line_of_lt (w := w.type c) hlt
    · rw [line_of_gt hgt]
      exact line_of_gt (w := w.type c) hgt

/-- As long as there is room above, a new line leaves every line at the height where it stood.
-/
theorem line_feed_of_room {room : Nat} {w : TextWindow α} (h : w.above.length < room) (i : Nat) :
    (w.feed room).line i = w.line i := by
  rw [line, lines, above_feed_of_room h, current_feed, line]
  by_cases hi : i < w.lines.length
  · rw [List.getElem?_append_left hi]
  · rw [List.getElem?_eq_none (Nat.le_of_not_lt hi)]
    rcases Nat.eq_or_lt_of_le (Nat.le_of_not_lt hi) with heq | hlt
    · rw [← heq, List.getElem?_concat_length]
      rfl
    · rw [List.getElem?_eq_none (by simpa using hlt)]

/-- In a full window, a new line moves every line up by one: the topmost is let go, and the
current line of before is the last one above. -/
theorem line_feed_of_full {room : Nat} {w : TextWindow α} (h : w.above.length = room) (i : Nat) :
    (w.feed room).line i = w.line (i + 1) := by
  have hlength : w.lines.length = room + 1 := by
    rw [lines, List.length_append, h, List.length_singleton]
  rw [line, lines, above_feed_of_full h, current_feed, line]
  by_cases hi : i < room
  · have hin : i < (w.lines.drop 1).length := by
      rw [List.length_drop, hlength]
      omega
    rw [List.getElem?_append_left hin, List.getElem?_drop, Nat.add_comm]
  · rw [List.getElem?_eq_none (l := w.lines) (by omega)]
    by_cases heq : i = room
    · have hlast : (w.lines.drop 1).length = i := by
        rw [List.length_drop, hlength]
        omega
      rw [← hlast, List.getElem?_concat_length]
      rfl
    · rw [List.getElem?_eq_none (by
        rw [List.length_append, List.length_drop, hlength, List.length_singleton]
        omega)]

variable [DecidableEq α] (newline : α) (room : Nat)

/-- What one symbol does to the window. -/
def read (w : TextWindow α) (c : α) : TextWindow α := if c = newline then w.feed room else w.type c

/-- The window on a text. -/
def ofText (text : List α) : TextWindow α := text.foldl (read newline room) empty

/-- Text can be read in pieces: the window after both is the one after the first, moved on by
the second.  This is what makes it irrelevant how a text is split into calls. -/
theorem ofText_append (s t : List α) :
    ofText newline room (s ++ t) = t.foldl (read newline room) (ofText newline room s) :=
  List.foldl_append

/-- A text with one more character at its end is the window of the text after reading that
character. -/
theorem ofText_concat (s : List α) (c : α) :
    ofText newline room (s ++ [c]) = (ofText newline room s).read newline room c :=
  ofText_append newline room s [c]

/-- A line break ends the last line of a text. -/
theorem splitOn_concat_self (s : List α) :
    (s ++ [newline]).splitOn newline = s.splitOn newline ++ [[]] :=
  List.splitOn_append_cons_self s []

/-- A symbol that is no newline lengthens the last line of a text and leaves the lines before
it, by induction over the text. -/
theorem splitOn_concat_of_ne {c : α} (hc : c ≠ newline) {s : List α} {earlier : List (List α)}
    {current : List α} (h : s.splitOn newline = earlier ++ [current]) :
    (s ++ [c]).splitOn newline = earlier ++ [current ++ [c]] := by
  induction s generalizing earlier current with
  | nil =>
      have hnone : earlier = [] ∧ current = [] := by
        cases earlier with
        | nil => exact ⟨rfl, (List.cons.inj h).1.symm⟩
        | cons _ _ => simp at h
      obtain ⟨rfl, rfl⟩ := hnone
      simp [List.splitOn_cons_eq_if_modifyHead, hc]
  | cons b s ih =>
      rw [List.splitOn_cons_eq_if_modifyHead] at h
      rw [List.cons_append, List.splitOn_cons_eq_if_modifyHead]
      obtain ⟨es, l, hs⟩ : ∃ es l, s.splitOn newline = es ++ [l] :=
        ⟨_, _, (List.dropLast_append_getLast (List.splitOn_ne_nil newline s)).symm⟩
      rw [ih hs]
      rw [hs] at h
      by_cases hb : b = newline
      · simp only [hb, beq_self_eq_true, if_true] at h ⊢
        have hsplit : ([] :: es) ++ [l] = earlier ++ [current] := h
        obtain ⟨rfl, hl⟩ := List.append_inj' hsplit rfl
        obtain rfl := (List.cons.inj hl).1
        rfl
      · simp only [beq_iff_eq, hb, if_false] at h ⊢
        cases es with
        | nil =>
            have hsplit : [] ++ [b :: l] = earlier ++ [current] := h
            obtain ⟨rfl, hl⟩ := List.append_inj' hsplit rfl
            obtain rfl := (List.cons.inj hl).1
            rfl
        | cons e es =>
            have hsplit : ((b :: e) :: es) ++ [l] = earlier ++ [current] := h
            obtain ⟨rfl, hl⟩ := List.append_inj' hsplit rfl
            obtain rfl := (List.cons.inj hl).1
            rfl

/-- **The window on a text shows the last lines of the text.**  By induction on
the text, from its end: the lines before the current one are those of which
the window keeps the last. -/
theorem ofText_eq (text : List α) :
    ∃ earlier, text.splitOn newline = earlier ++ [(ofText newline room text).current] ∧
      (ofText newline room text).above = earlier.rtake room := by
  induction text using List.reverseRecOn with
  | nil => exact ⟨[], rfl, by simp [ofText, empty]⟩
  | append_singleton text c ih =>
      obtain ⟨earlier, hlines, habove⟩ := ih
      rw [ofText_concat]
      by_cases hc : c = newline
      · subst hc
        simp only [read, if_true]
        refine ⟨text.splitOn c, splitOn_concat_self c text, ?_⟩
        rw [hlines]
        cases room with
        | zero => simp [feed, List.rtake]
        | succ n =>
            simp only [feed, lines, habove, List.rtake_concat_succ]
            congr 1
            simp only [List.rtake, List.drop_drop, List.length_drop]
            congr 1
            omega
      · simp only [read, if_neg hc]
        exact ⟨earlier, splitOn_concat_of_ne newline hc hlines, habove⟩

/-- **What a window shows** of a text: its last lines, as many as there is room for. -/
theorem ofText_lines (text : List α) :
    (ofText newline room text).lines = (text.splitOn newline).rtake (room + 1) := by
  obtain ⟨earlier, hlines, habove⟩ := ofText_eq newline room text
  rw [hlines, List.rtake_concat_succ, lines, habove]

/-- The current line is the last one of the text. -/
theorem current_eq (text : List α) :
    (ofText newline room text).current
      = (text.splitOn newline).getLast (List.splitOn_ne_nil newline text) := by
  obtain ⟨earlier, hlines, -⟩ := ofText_eq newline room text
  simp only [hlines, List.getLast_concat]

end TextWindow

end Mikanos
