import Mikanos.Lib.Canvas

/-!
# Pixels

`PixelWriter` has one virtual function, `Write(x, y, c)`.  The drawing code of
the kernel reaches the screen through it alone, so a drawing function is
modelled by the list of the calls of `Write` it makes, in their order.  The
coordinates are C++ `int`s, which may well be negative.

A `Screen` says which colour each point shows; drawing on it is painting a
canvas.  What a `Write` does to the bytes of the frame buffer is the subject of
`Graphics/FrameBuffer`.
-/

namespace Mikanos

/-- `PixelColor`. -/
structure PixelColor where
  r : BitVec 8
  g : BitVec 8
  b : BitVec 8
  deriving DecidableEq, Repr

/-- A call of `PixelWriter::Write`: the point `(x, y)` and the colour. -/
abbrev Write := Canvas.Stroke (Int × Int) PixelColor

/-- `Write(x, y, c)`. -/
def write (x y : Int) (c : PixelColor) : Write := ⟨(x, y), c⟩

/-- The colour of every point. -/
abbrev Screen := Int × Int → PixelColor

/-- A loop `for (int i = 0; i < n; i++)` around calls of `Write`. -/
def forInt (n : Nat) (body : Int → List Write) : List Write :=
  (List.range n).flatMap fun i : Nat => body i

/-- `FillRectangle(writer, {x, y}, {w, h}, c)`. -/
def fillRectangle (x y : Int) (w h : Nat) (c : PixelColor) : List Write :=
  forInt h fun dy => forInt w fun dx => [write (x + dx) (y + dy) c]

/-- `DrawRectangle(writer, {x, y}, {w, h}, c)`: first the upper and the lower edge, then what is
left of the two sides. -/
def drawRectangle (x y w h : Int) (c : PixelColor) : List Write :=
  (forInt w.toNat fun dx => [write (x + dx) y c, write (x + dx) (y + h - 1) c]) ++
  -- the round `i` of the second loop is the one with `dy = 1 + i`
  forInt (h - 1 - 1).toNat fun i => [write x (y + (1 + i)) c, write (x + w - 1) (y + (1 + i)) c]

open Canvas

/-- A single pixel has the colour it was written with. -/
theorem inOneInk_write (x y : Int) (c : PixelColor) : InOneInk [write x y c] c := by
  intro w hw
  rw [List.mem_singleton.mp hw]
  rfl

/-- `Write` covers its own pixel, and no other. -/
theorem covers_write {x y : Int} {c : PixelColor} {p : Int × Int} :
    Covers [write x y c] p ↔ p = (x, y) := by
  simp only [Covers, List.mem_singleton, exists_eq_left, write]
  exact eq_comm

/-- A loop draws in one ink if each of its rounds does.  With `covers_forInt` this reduces the
nested loops of `graphics.cpp` to single pixels. -/
theorem inOneInk_forInt {n : Nat} {body : Int → List Write} {c : PixelColor}
    (h : ∀ i < n, InOneInk (body i) c) : InOneInk (forInt n body) c :=
  InOneInk.flatMap fun i hi => h i (List.mem_range.mp hi)

/-- A loop covers what one of its rounds covers. -/
theorem covers_forInt {n : Nat} {body : Int → List Write} {p : Int × Int} :
    Covers (forInt n body) p ↔ ∃ i < n, Covers (body i) p := by
  simp only [forInt, covers_flatMap, List.mem_range]

/-- A filled rectangle covers the rectangle, from its corner on and without the pixels at the
far edges. -/
theorem covers_fillRectangle {x y : Int} {w h : Nat} {c : PixelColor} {p : Int × Int} :
    Covers (fillRectangle x y w h c) p ↔
      (x ≤ p.1 ∧ p.1 < x + w) ∧ y ≤ p.2 ∧ p.2 < y + h := by
  obtain ⟨px, py⟩ := p
  simp only [fillRectangle, covers_forInt, covers_write, Prod.mk.injEq]
  constructor
  · rintro ⟨dy, hdy, dx, hdx, hx, hy⟩
    omega
  · rintro ⟨⟨hx, hx'⟩, hy, hy'⟩
    exact ⟨(py - y).toNat, by omega, (px - x).toNat, by omega, by omega, by omega⟩

/-- The two loops of `FillRectangle` write one colour only. -/
theorem inOneInk_fillRectangle (x y : Int) (w h : Nat) (c : PixelColor) :
    InOneInk (fillRectangle x y w h c) c :=
  inOneInk_forInt fun _ _ => inOneInk_forInt fun _ _ => inOneInk_write _ _ _

/-- The point is on the outline of the rectangle. -/
def OnOutline (x y w h : Int) (p : Int × Int) : Prop :=
  ((x ≤ p.1 ∧ p.1 < x + w) ∧ (p.2 = y ∨ p.2 = y + h - 1)) ∨
    (y < p.2 ∧ p.2 < y + h - 1) ∧ (p.1 = x ∨ p.1 = x + w - 1)

instance (x y w h : Int) (p : Int × Int) : Decidable (OnOutline x y w h p) := by
  unfold OnOutline
  infer_instance

/-- `DrawRectangle` writes its sides in pairs of opposite pixels. -/
theorem covers_pair {u v : Write} {p : Int × Int} :
    Covers [u, v] p ↔ p = u.point ∨ p = v.point := by
  simp only [Covers, List.mem_cons, List.not_mem_nil, or_false, exists_eq_or_imp, exists_eq_left,
    eq_comm (a := p)]

/-- A drawn rectangle covers its outline, the first and the last row and column, also where its
width or its height is zero or less. -/
theorem covers_drawRectangle {x y w h : Int} {c : PixelColor} {p : Int × Int} :
    Covers (drawRectangle x y w h c) p ↔ OnOutline x y w h p := by
  obtain ⟨px, py⟩ := p
  simp only [drawRectangle, covers_append, covers_forInt, covers_pair, write, Prod.mk.injEq,
    OnOutline]
  constructor
  · rintro (⟨dx, hdx, h | h⟩ | ⟨i, hi, h | h⟩)
    · exact Or.inl ⟨by omega, Or.inl h.2⟩
    · exact Or.inl ⟨by omega, Or.inr h.2⟩
    · exact Or.inr ⟨by omega, Or.inl h.1⟩
    · exact Or.inr ⟨by omega, Or.inr h.1⟩
  · rintro (⟨hx, h | h⟩ | ⟨hy, h | h⟩)
    · exact Or.inl ⟨(px - x).toNat, by omega, Or.inl ⟨by omega, h⟩⟩
    · exact Or.inl ⟨(px - x).toNat, by omega, Or.inr ⟨by omega, h⟩⟩
    · exact Or.inr ⟨(py - y - 1).toNat, by omega, Or.inl ⟨h, by omega⟩⟩
    · exact Or.inr ⟨(py - y - 1).toNat, by omega, Or.inr ⟨h, by omega⟩⟩

/-- Both pixels of such a pair have the same colour. -/
theorem inOneInk_pair (x y x' y' : Int) (c : PixelColor) :
    InOneInk [write x y c, write x' y' c] c := by
  intro w hw
  rcases List.mem_cons.mp hw with rfl | hw
  · rfl
  · rw [List.mem_singleton.mp hw]
    rfl

/-- The four sides of `DrawRectangle` are drawn in one ink. -/
theorem inOneInk_drawRectangle (x y w h : Int) (c : PixelColor) :
    InOneInk (drawRectangle x y w h c) c := by
  intro s hs
  rcases List.mem_append.mp hs with hs | hs
  · exact inOneInk_forInt (fun _ _ => inOneInk_pair _ _ _ _ c) s hs
  · exact inOneInk_forInt (fun _ _ => inOneInk_pair _ _ _ _ c) s hs

end Mikanos
