import Mikanos.Graphics.FrameBuffer

/-!
# The mouse cursor

The cursor is a bitmap of 15 by 24 characters drawn with its upper left corner
at `position_`.  `MoveRelative` erases it, adds the displacement to the position
and draws it again; nothing keeps the position on the screen.  The bitmap
reaches all four of its edges, so it is on the screen exactly if its whole
rectangle is (`drawMouseCursor_onScreen`).

Positions are integers of any size.  On a screen that 32-bit offsets reach they
stay far within the range of `int`.
-/

namespace Mikanos

open Canvas

/-- `Vector2D<int>`. -/
structure Vector2D where
  x : Int
  y : Int
  deriving DecidableEq, Repr

/-- `Vector2D::operator+=`. -/
def Vector2D.add (self rhs : Vector2D) : Vector2D := ⟨self.x + rhs.x, self.y + rhs.y⟩

/-- `kMouseCursorWidth`. -/
def kMouseCursorWidth : Nat := 15

/-- `kMouseCursorHeight`. -/
def kMouseCursorHeight : Nat := 24

/-- `mouse_cursor_shape`. -/
def mouseCursorShape : List String := [
  "@              ",
  "@@             ",
  "@.@            ",
  "@..@           ",
  "@...@          ",
  "@....@         ",
  "@.....@        ",
  "@......@       ",
  "@.......@      ",
  "@........@     ",
  "@.........@    ",
  "@..........@   ",
  "@...........@  ",
  "@............@ ",
  "@......@@@@@@@@",
  "@......@       ",
  "@....@@.@      ",
  "@...@ @.@      ",
  "@..@   @.@     ",
  "@.@    @.@     ",
  "@@      @.@    ",
  "@       @.@    ",
  "         @.@   ",
  "         @@@   "]

/-- `mouse_cursor_shape[dy][dx]`. -/
def shapeAt (dx dy : Nat) : Char :=
  (((mouseCursorShape[dy]?).getD "").toList[dx]?).getD ' '

/-- The two nested loops over the bitmap. -/
def forCursor (body : Nat → Nat → List Write) : List Write :=
  (List.range kMouseCursorHeight).flatMap fun dy =>
    (List.range kMouseCursorWidth).flatMap fun dx => body dx dy

/-- `DrawMouseCursor(pixel_writer, position)`. -/
def drawMouseCursor (position : Vector2D) : List Write :=
  forCursor fun dx dy =>
    if shapeAt dx dy = '@' then [write (position.x + dx) (position.y + dy) ⟨0, 0, 0⟩]
    else if shapeAt dx dy = '.' then [write (position.x + dx) (position.y + dy) ⟨255, 255, 255⟩]
    else []

/-- `EraseMouseCursor(pixel_writer, position, erase_color)`. -/
def eraseMouseCursor (position : Vector2D) (eraseColor : PixelColor) : List Write :=
  forCursor fun dx dy =>
    if shapeAt dx dy ≠ ' ' then [write (position.x + dx) (position.y + dy) eraseColor] else []

/-- `MouseCursor`, `pixel_writer_` apart. -/
structure MouseCursor where
  eraseColor : PixelColor
  position : Vector2D
  deriving DecidableEq, Repr

namespace MouseCursor

/-- `MouseCursor::MouseCursor(writer, erase_color, initial_position)`. -/
def construct (eraseColor : PixelColor) (initialPosition : Vector2D) :
    List Write × MouseCursor :=
  (drawMouseCursor initialPosition, ⟨eraseColor, initialPosition⟩)

/-- `MoveRelative(displacement)`. -/
def moveRelative (self : MouseCursor) (displacement : Vector2D) : List Write × MouseCursor :=
  let moved := { self with position := self.position.add displacement }
  (eraseMouseCursor self.position self.eraseColor ++ drawMouseCursor moved.position, moved)

end MouseCursor

/-! ## The pixels of the cursor -/

/-- The bitmap has a pixel there. -/
def CursorCovers (position : Vector2D) (p : Int × Int) : Prop :=
  ∃ dy < kMouseCursorHeight, ∃ dx < kMouseCursorWidth,
    shapeAt dx dy ≠ ' ' ∧ p = (position.x + (dx : Nat), position.y + (dy : Nat))

/-- The two loops over the shape of the cursor cover what one of their rounds covers. -/
theorem covers_forCursor {body : Nat → Nat → List Write} {p : Int × Int} :
    Covers (forCursor body) p ↔ ∃ dy < kMouseCursorHeight, ∃ dx < kMouseCursorWidth,
      Covers (body dx dy) p := by
  simp only [forCursor, covers_flatMap, List.mem_range]

theorem not_covers_nil {p : Int × Int} : ¬ Covers ([] : List Write) p := by
  intro ⟨w, hw, _⟩
  exact absurd hw List.not_mem_nil

/-- Every character of the bitmap is one of three. -/
theorem shapeAt_cases : ∀ dy < kMouseCursorHeight, ∀ dx < kMouseCursorWidth,
    shapeAt dx dy = '@' ∨ shapeAt dx dy = '.' ∨ shapeAt dx dy = ' ' := by
  decide +kernel

/-- **The drawn cursor** covers the pixels of its shape, and leaves the ones between them as
they are. -/
theorem covers_drawMouseCursor {position : Vector2D} {p : Int × Int} :
    Covers (drawMouseCursor position) p ↔ CursorCovers position p := by
  rw [drawMouseCursor, covers_forCursor]
  have hcell : ∀ dy < kMouseCursorHeight, ∀ dx < kMouseCursorWidth,
      (Covers (if shapeAt dx dy = '@' then
          [write (position.x + (dx : Nat)) (position.y + (dy : Nat)) ⟨0, 0, 0⟩]
        else if shapeAt dx dy = '.' then
          [write (position.x + (dx : Nat)) (position.y + (dy : Nat)) ⟨255, 255, 255⟩]
        else []) p ↔
      shapeAt dx dy ≠ ' ' ∧ p = (position.x + (dx : Nat), position.y + (dy : Nat))) := by
    intro dy hdy dx hdx
    rcases shapeAt_cases dy hdy dx hdx with h | h | h
    · simp [h, covers_write]
    · simp [h, covers_write]
    · simp [h, not_covers_nil]
  constructor
  · intro ⟨dy, hdy, dx, hdx, h⟩
    exact ⟨dy, hdy, dx, hdx, (hcell dy hdy dx hdx).mp h⟩
  · intro ⟨dy, hdy, dx, hdx, h⟩
    exact ⟨dy, hdy, dx, hdx, (hcell dy hdy dx hdx).mpr h⟩

/-- The cursor is erased exactly where it was drawn: the two loops run over the same shape and
skip the same pixels. -/
theorem covers_eraseMouseCursor {position : Vector2D} {eraseColor : PixelColor}
    {p : Int × Int} :
    Covers (eraseMouseCursor position eraseColor) p ↔ CursorCovers position p := by
  rw [eraseMouseCursor, covers_forCursor]
  have hcell : ∀ dx dy : Nat,
      (Covers (if shapeAt dx dy ≠ ' ' then
          [write (position.x + (dx : Nat)) (position.y + (dy : Nat)) eraseColor] else []) p ↔
      shapeAt dx dy ≠ ' ' ∧ p = (position.x + (dx : Nat), position.y + (dy : Nat))) := by
    intro dx dy
    split
    case isTrue h => simp [h, covers_write]
    case isFalse h => simp [h, not_covers_nil]
  simp only [hcell]
  rfl

/-! ## The cursor on the screen -/

namespace FrameBufferConfig

/-- The rectangle of a cursor at this position is on the screen. -/
def CursorFits (config : FrameBufferConfig) (position : Vector2D) : Prop :=
  (0 ≤ position.x ∧ position.x + kMouseCursorWidth ≤ config.horizontalResolution.toNat) ∧
    0 ≤ position.y ∧ position.y + kMouseCursorHeight ≤ config.verticalResolution.toNat

variable {config : FrameBufferConfig}

/-- **A cursor is on the screen exactly if its rectangle is**: the bitmap has
pixels in its first column and row, in its last column and in its last row. -/
theorem cursorCovers_onScreen {position : Vector2D} :
    (∀ p, CursorCovers position p → config.OnScreen p) ↔ config.CursorFits position := by
  have hwidth : kMouseCursorWidth = 15 := rfl
  have hheight : kMouseCursorHeight = 24 := rfl
  constructor
  · intro h
    obtain ⟨⟨hleft, _⟩, htop, _⟩ := h _ ⟨0, by decide, 0, by decide, by decide +kernel, rfl⟩
    obtain ⟨⟨_, hright⟩, _⟩ := h _ ⟨14, by decide, 14, by decide, by decide +kernel, rfl⟩
    obtain ⟨_, _, hbottom⟩ := h _ ⟨23, by decide, 9, by decide, by decide +kernel, rfl⟩
    simp only at hleft htop hright hbottom
    refine ⟨⟨?_, ?_⟩, ?_, ?_⟩ <;> omega
  · intro ⟨⟨hleft, hright⟩, htop, hbottom⟩ p ⟨dy, hdy, dx, hdx, _, hp⟩
    subst hp
    refine ⟨⟨?_, ?_⟩, ?_, ?_⟩ <;> simp only <;> omega

end FrameBufferConfig

end Mikanos
