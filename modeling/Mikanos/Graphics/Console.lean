import Mikanos.Graphics.Font

/-!
# The text console

`Console` keeps what it shows as characters, one row of its buffer a line, and
draws them as they come.  A newline in the last row scrolls: the area is filled
with the background, each row takes over the characters of the one below it and
is drawn again, and the last row is emptied.

A buffer index is a C++ `int`; an access outside the array it names is the fault
`outOfBounds`.
-/

namespace Mikanos

/-- `a[i]`. -/
def elementAt {α : Type} {n : Nat} (a : Vector α n) (i : Int) : Except Fault α :=
  if h : 0 ≤ i ∧ i.toNat < n then .ok (a.get ⟨i.toNat, h.2⟩) else .error .outOfBounds

/-- `a[i] = v`. -/
def setElement {α : Type} {n : Nat} (a : Vector α n) (i : Int) (v : α) :
    Except Fault (Vector α n) :=
  if h : 0 ≤ i ∧ i.toNat < n then .ok (a.set i.toNat v h.2) else .error .outOfBounds

/-- A subscript of type `int` that is in bounds reads the element. -/
theorem elementAt_natCast {α : Type} {n : Nat} (a : Vector α n) {i : Nat} (h : i < n) :
    elementAt a (i : Int) = .ok a[i] := by
  unfold elementAt
  rw [dif_pos ⟨Int.natCast_nonneg i, h⟩]
  rfl

/-- A store with such a subscript changes this element and has no fault. -/
theorem setElement_natCast {α : Type} {n : Nat} (a : Vector α n) {i : Nat} (h : i < n) (v : α) :
    setElement a (i : Int) v = .ok (a.set i v h) := by
  unfold setElement
  rw [dif_pos ⟨Int.natCast_nonneg i, h⟩]
  rfl

/-- The bytes of a C string, without the NUL that ends it. -/
structure CString where
  chars : List (BitVec 8)
  noNul : 0 ∉ chars

/-- The bytes in memory at a `const char*`. -/
def CString.bytes (s : CString) : List (BitVec 8) := s.chars ++ [0]

/-- `'\n'`. -/
def newlineChar : BitVec 8 := 10

namespace Console

/-- `Console::kRows`. -/
def kRows : Nat := 25

/-- `Console::kColumns`. -/
def kColumns : Nat := 80

/-- A row of `buffer_`. -/
abbrev Row := Vector (BitVec 8) (kColumns + 1)

end Console

open Console in
/-- `Console`, `writer_` apart. -/
structure Console where
  fgColor : PixelColor
  bgColor : PixelColor
  buffer : Vector Row kRows
  cursorRow : Int
  cursorColumn : Int

namespace Console

/-- `Console::Console(writer, fg_color, bg_color)`. -/
def construct (fgColor bgColor : PixelColor) : Console where
  fgColor := fgColor
  bgColor := bgColor
  buffer := Vector.replicate kRows (Vector.replicate (kColumns + 1) 0)
  cursorRow := 0
  cursorColumn := 0

/-- The fill of `Newline()`: every pixel of the area in the background colour. -/
def clear (self : Console) : List Write :=
  forInt (16 * kRows) fun y => forInt (8 * kColumns) fun x => [write x y self.bgColor]

/-- `buffer_[cursor_row_][cursor_column_] = c`. -/
def store (self : Console) (c : BitVec 8) : Except Fault (Vector Row kRows) :=
  (elementAt self.buffer self.cursorRow).bind fun line =>
  (setElement line self.cursorColumn c).bind fun line =>
  setElement self.buffer self.cursorRow line

section Drawing

variable (hankaku : HankakuBin)

/-- The first rounds of the loop of `Newline()` that moves the rows up: the
calls of `Write` made in them and the buffer after them. -/
def moveRows (self : Console) : Nat → Except Fault (List Write × Vector Row kRows)
  | 0 => .ok ([], self.buffer)
  | row + 1 =>
      (moveRows self row).bind fun (writes, buffer) =>
      (elementAt buffer (row + 1)).bind fun below =>
      (setElement buffer row below).bind fun buffer =>
      (elementAt buffer row).bind fun line =>
      (writeString hankaku 0 (16 * row) line.toList self.fgColor).map fun drawn =>
        (writes ++ drawn, buffer)

/-- `Newline()`. -/
def newline (self : Console) : Except Fault (List Write × Console) :=
  let self := { self with cursorColumn := 0 }
  if self.cursorRow < (kRows : Int) - 1 then
    .ok ([], { self with cursorRow := self.cursorRow + 1 })
  else
    (self.moveRows hankaku (kRows - 1)).bind fun (drawn, buffer) =>
    (setElement buffer ((kRows : Int) - 1) (Vector.replicate (kColumns + 1) 0)).map
      fun buffer => (self.clear ++ drawn, { self with buffer := buffer })

/-- The body of the loop of `PutString` for the character `c`. -/
def putChar (self : Console) (c : BitVec 8) : Except Fault (List Write × Console) :=
  if c = newlineChar then self.newline hankaku
  else if self.cursorColumn < (kColumns : Int) - 1 then
    self.store c |>.map fun buffer =>
      (writeAscii hankaku (8 * self.cursorColumn) (16 * self.cursorRow) c self.fgColor,
        { self with buffer := buffer, cursorColumn := self.cursorColumn + 1 })
  else .ok ([], self)

/-- The loop of `PutString` at the bytes from `s` on. -/
def putBytes (self : Console) : List (BitVec 8) → Except Fault (List Write × Console)
  | [] => .error .outOfBounds
  | c :: s =>
      if c = 0 then .ok ([], self)
      else
        (self.putChar hankaku c).bind fun (drawn, self) =>
        (putBytes self s).map fun (writes, self) => (drawn ++ writes, self)

/-- `PutString(s)`. -/
def putString (self : Console) (s : CString) : Except Fault (List Write × Console) :=
  self.putBytes hankaku s.bytes

/-- One call of `PutString` after the other. -/
def putStrings (self : Console) : List CString → Except Fault (List Write × Console)
  | [] => .ok ([], self)
  | s :: calls =>
      (self.putString hankaku s).bind fun (drawn, self) =>
      (putStrings self calls).map fun (writes, self) => (drawn ++ writes, self)

end Drawing

end Console

end Mikanos
