import Mikanos.Graphics.PixelWriter
import Mikanos.Lib.ByteMemory
import Mikanos.Error

/-!
# The frame buffer

Both pixel writers find the bytes of the pixel `(x, y)` with `PixelAt`, whose
offset is computed in 32-bit unsigned arithmetic and only then added to the
64-bit pointer.  For a point on the screen the arithmetic does not wrap, and
different points have different offsets (`offset_toNat`, `offset_injective`).

`store_refines` connects the two views of a drawing: as long as every call of
`Write` is on the screen, the pixels read from the frame buffer are those of
the painted `Screen`, and no byte outside the frame buffer changes
(`store_frame`).
-/

namespace Mikanos

open Canvas

/-- `PixelFormat`. -/
inductive PixelFormat where
  | kPixelRGBResv8BitPerColor
  | kPixelBGRResv8BitPerColor
  deriving DecidableEq, Repr

/-- `FrameBufferConfig`. -/
structure FrameBufferConfig where
  frameBuffer : Addr
  pixelsPerScanLine : BitVec 32
  horizontalResolution : BitVec 32
  verticalResolution : BitVec 32
  pixelFormat : PixelFormat
  deriving DecidableEq, Repr

namespace FrameBufferConfig

/-- `4 * (pixels_per_scan_line * y + x)`, as the C++ types have it: `int`
operands are converted to `unsigned`. -/
def offset (config : FrameBufferConfig) (x y : Int) : BitVec 32 :=
  4 * (config.pixelsPerScanLine * BitVec.ofInt 32 y + BitVec.ofInt 32 x)

/-- `PixelAt(x, y)`. -/
def pixelAt (config : FrameBufferConfig) (x y : Int) : Addr :=
  config.frameBuffer + (config.offset x y).setWidth 64

/-- The three bytes a pixel writer stores at `PixelAt(x, y)`. -/
def pixelBytes (config : FrameBufferConfig) (c : PixelColor) :
    BitVec 8 × BitVec 8 × BitVec 8 :=
  match config.pixelFormat with
  | .kPixelRGBResv8BitPerColor => (c.r, c.g, c.b)
  | .kPixelBGRResv8BitPerColor => (c.b, c.g, c.r)

/-- `Write(x, y, c)` of the pixel writer for the format. -/
def storePixel (config : FrameBufferConfig) (w : Write) (memory : ByteMemory) : ByteMemory :=
  let p := config.pixelAt w.point.1 w.point.2
  let bytes := config.pixelBytes w.ink
  Function.update (Function.update (Function.update memory p bytes.1) (p + 1) bytes.2.1)
    (p + 2) bytes.2.2

/-- The calls of `Write` one after the other. -/
def store (config : FrameBufferConfig) : List Write → ByteMemory → ByteMemory
  | [], memory => memory
  | w :: writes, memory => store config writes (config.storePixel w memory)

/-- The colour that three bytes in a row stand for. -/
def colorOf (config : FrameBufferConfig) (b₀ b₁ b₂ : BitVec 8) : PixelColor :=
  match config.pixelFormat with
  | .kPixelRGBResv8BitPerColor => ⟨b₀, b₁, b₂⟩
  | .kPixelBGRResv8BitPerColor => ⟨b₂, b₁, b₀⟩

/-- The colour of the pixel `(x, y)` as the hardware reads it. -/
def pixelOf (config : FrameBufferConfig) (memory : ByteMemory) (p : Int × Int) : PixelColor :=
  let a := config.pixelAt p.1 p.2
  config.colorOf (memory a) (memory (a + 1)) (memory (a + 2))

/-- The size of the frame buffer in bytes. -/
def size (config : FrameBufferConfig) : Nat :=
  4 * config.pixelsPerScanLine.toNat * config.verticalResolution.toNat

/-- The byte belongs to the frame buffer. -/
def Contains (config : FrameBufferConfig) (a : Addr) : Prop :=
  ∃ offset < config.size, a = config.frameBuffer + BitVec.ofNat 64 offset

/-- The point is on the screen. -/
def OnScreen (config : FrameBufferConfig) (p : Int × Int) : Prop :=
  (0 ≤ p.1 ∧ p.1 < config.horizontalResolution.toNat) ∧
    0 ≤ p.2 ∧ p.2 < config.verticalResolution.toNat

/-- The kernel's expectations of the screen: room for the console and the first
cursor, lines at least as long as what is shown of them, and a frame buffer that
32-bit offsets reach. -/
structure Fits (config : FrameBufferConfig) : Prop where
  width : 640 ≤ config.horizontalResolution.toNat
  height : 400 ≤ config.verticalResolution.toNat
  line : config.horizontalResolution.toNat ≤ config.pixelsPerScanLine.toNat
  reach : config.size < 2 ^ 32

/-- The part of these that drawing needs: a pixel on the screen has bytes of its
own. -/
structure Addressable (config : FrameBufferConfig) : Prop where
  line : config.horizontalResolution.toNat ≤ config.pixelsPerScanLine.toNat
  reach : config.size < 2 ^ 32

/-- A frame buffer that fits into the address space can be addressed. -/
theorem Fits.addressable {config : FrameBufferConfig} (h : config.Fits) : config.Addressable :=
  ⟨h.line, h.reach⟩

variable {config : FrameBufferConfig}

/-- A screen coordinate is its own 32-bit number. -/
theorem toNat_ofInt {n : Nat} (h : n < 2 ^ 32) : (BitVec.ofInt 32 (n : Int)).toNat = n := by
  rw [BitVec.ofInt_natCast, BitVec.toNat_ofNat, Nat.mod_eq_of_lt h]

/-- The four bytes of a pixel on the screen lie in the buffer: the pixel lies in its line, as
the line is at least as long as the resolution, and the line in the buffer. -/
theorem offset_lt (haddr : config.Addressable) {x y : Nat}
    (hx : x < config.horizontalResolution.toNat) (hy : y < config.verticalResolution.toNat) :
    4 * (config.pixelsPerScanLine.toNat * y + x) + 4 ≤ config.size := by
  have hline := haddr.line
  have hlines : config.pixelsPerScanLine.toNat * (y + 1)
      ≤ config.pixelsPerScanLine.toNat * config.verticalResolution.toNat :=
    Nat.mul_le_mul_left _ hy
  calc 4 * (config.pixelsPerScanLine.toNat * y + x) + 4
      ≤ 4 * (config.pixelsPerScanLine.toNat * (y + 1)) := by
        rw [Nat.mul_succ]
        omega
    _ ≤ 4 * (config.pixelsPerScanLine.toNat * config.verticalResolution.toNat) :=
        Nat.mul_le_mul_left 4 hlines
    _ = config.size := (Nat.mul_assoc _ _ _).symm

/-- **The offset of a pixel on the screen does not wrap**: the unsigned product and sum stay
below 2^32, as the frame buffer does, so the offset is the one that the arithmetic means. -/
theorem offset_toNat (haddr : config.Addressable) {x y : Nat}
    (hx : x < config.horizontalResolution.toNat) (hy : y < config.verticalResolution.toNat) :
    (config.offset x y).toNat = 4 * (config.pixelsPerScanLine.toNat * y + x) := by
  have hlt := offset_lt haddr hx hy
  have hreach := haddr.reach
  have hyres := config.verticalResolution.isLt
  have hx' : (BitVec.ofInt 32 (x : Int)).toNat = x := toNat_ofInt (by omega)
  have hy' : (BitVec.ofInt 32 (y : Int)).toNat = y := toNat_ofInt (by omega)
  have hsum : (config.pixelsPerScanLine * BitVec.ofInt 32 y + BitVec.ofInt 32 x).toNat
      = config.pixelsPerScanLine.toNat * y + x := by
    rw [BitVec.toNat_add, BitVec.toNat_mul, hx', hy', Nat.mod_eq_of_lt (by omega),
      Nat.mod_eq_of_lt (by omega)]
  have hfour : (4 : BitVec 32).toNat = 4 := rfl
  rw [offset, BitVec.toNat_mul, hsum, hfour, Nat.mod_eq_of_lt (by omega)]

/-! ## Bytes of the frame buffer -/

/-- The byte number `o` of the frame buffer. -/
def byteAt (config : FrameBufferConfig) (o : Nat) : Addr :=
  config.frameBuffer + BitVec.ofNat 64 o

/-- Different offsets in the first 4 GiB are different bytes. -/
theorem byteAt_injective {o o' : Nat} (ho : o < 2 ^ 32) (ho' : o' < 2 ^ 32)
    (h : config.byteAt o = config.byteAt o') : o = o' := by
  have hofs : BitVec.ofNat 64 o = BitVec.ofNat 64 o' := (BitVec.add_right_inj _).mp h
  have hnat := congrArg BitVec.toNat hofs
  rw [BitVec.toNat_ofNat, BitVec.toNat_ofNat] at hnat
  omega

/-- The bytes of a pixel follow each other. -/
theorem byteAt_add (o k : Nat) :
    config.byteAt o + BitVec.ofNat 64 k = config.byteAt (o + k) := by
  rw [byteAt, byteAt, BitVec.ofNat_add, BitVec.add_assoc]

/-- The number of a pixel, counted line by line. -/
def index (config : FrameBufferConfig) (x y : Nat) : Nat :=
  config.pixelsPerScanLine.toNat * y + x

/-- Different pixels on the screen have different numbers, since a pixel lies in its line and
the lines do not overlap. -/
theorem index_injective (haddr : config.Addressable) {x y x' y' : Nat}
    (hx : x < config.horizontalResolution.toNat) (hx' : x' < config.horizontalResolution.toNat)
    (h : config.index x y = config.index x' y') : x = x' ∧ y = y' := by
  have hline := haddr.line
  have hdiv : ∀ {u v : Nat}, u < config.pixelsPerScanLine.toNat →
      config.index u v / config.pixelsPerScanLine.toNat = v := by
    intro u v hu
    rw [index, Nat.mul_add_div (by omega), Nat.div_eq_of_lt hu, Nat.add_zero]
  have hy : y = y' := by rw [← hdiv (v := y) (by omega : x < _), h, hdiv (by omega)]
  subst hy
  exact ⟨Nat.add_left_cancel h, rfl⟩

/-- **Where a pixel lies**: the product that the code computes with `int` is the index that is
meant, for the pixels of the screen. -/
theorem pixelAt_eq (haddr : config.Addressable) {x y : Nat}
    (hx : x < config.horizontalResolution.toNat) (hy : y < config.verticalResolution.toNat) :
    config.pixelAt x y = config.byteAt (4 * config.index x y) := by
  have hoffset : (config.offset x y).setWidth 64 = BitVec.ofNat 64 (4 * config.index x y) := by
    apply BitVec.eq_of_toNat_eq
    have hlt := (config.offset x y).isLt
    rw [BitVec.toNat_setWidth, BitVec.toNat_ofNat, offset_toNat haddr hx hy]
    rfl
  rw [pixelAt, hoffset, byteAt]

/-- The three bytes of a pixel. -/
theorem pixelAt_add (haddr : config.Addressable) {x y : Nat}
    (hx : x < config.horizontalResolution.toNat) (hy : y < config.verticalResolution.toNat)
    (k : Nat) :
    config.pixelAt x y + BitVec.ofNat 64 k = config.byteAt (4 * config.index x y + k) := by
  rw [pixelAt_eq haddr hx hy, byteAt_add]

/-- A point of the screen has natural coordinates. -/
theorem OnScreen.natCast {p : Int × Int} (h : config.OnScreen p) :
    ∃ x y : Nat, p = (↑x, ↑y) ∧ x < config.horizontalResolution.toNat ∧
      y < config.verticalResolution.toNat := by
  obtain ⟨px, py⟩ := p
  obtain ⟨⟨hx0, hx⟩, hy0, hy⟩ := h
  obtain ⟨x, rfl⟩ := Int.eq_ofNat_of_zero_le hx0
  obtain ⟨y, rfl⟩ := Int.eq_ofNat_of_zero_le hy0
  exact ⟨x, y, rfl, Int.ofNat_lt.mp hx, Int.ofNat_lt.mp hy⟩

/-! ## Drawing on the frame buffer -/

/-- The bytes of a pixel written on the screen. -/
theorem storePixel_eq (haddr : config.Addressable) {x y : Nat} {c : PixelColor}
    (hx : x < config.horizontalResolution.toNat) (hy : y < config.verticalResolution.toNat)
    (memory : ByteMemory) :
    config.storePixel ⟨(↑x, ↑y), c⟩ memory =
      Function.update (Function.update (Function.update memory
        (config.byteAt (4 * config.index x y)) (config.pixelBytes c).1)
        (config.byteAt (4 * config.index x y + 1)) (config.pixelBytes c).2.1)
        (config.byteAt (4 * config.index x y + 2)) (config.pixelBytes c).2.2 := by
  rw [← pixelAt_eq haddr hx hy, ← pixelAt_add haddr hx hy 1, ← pixelAt_add haddr hx hy 2]
  rfl

/-- A call of `Write` on the screen changes no byte outside the frame buffer: its three bytes
lie within the four of its pixel. -/
theorem storePixel_frame (haddr : config.Addressable) {w : Write} (hw : config.OnScreen w.point)
    {a : Addr} (ha : ¬ config.Contains a) (memory : ByteMemory) :
    config.storePixel w memory a = memory a := by
  obtain ⟨point, c⟩ := w
  obtain ⟨x, y, rfl, hx, hy⟩ := hw.natCast
  have hlt : 4 * config.index x y + 4 ≤ config.size := offset_lt haddr hx hy
  have hne : ∀ k < 3, a ≠ config.byteAt (4 * config.index x y + k) := by
    intro k hk h
    exact ha ⟨4 * config.index x y + k, by omega, h⟩
  have hne₀ : a ≠ config.byteAt (4 * config.index x y) := hne 0 (by omega)
  rw [storePixel_eq haddr hx hy, Function.update_of_ne (hne 2 (by omega)),
    Function.update_of_ne (hne 1 (by omega)), Function.update_of_ne hne₀]

/-- **A drawing on the screen changes no byte outside the frame buffer.** -/
theorem store_frame (haddr : config.Addressable) {writes : List Write}
    (hwrites : ∀ w ∈ writes, config.OnScreen w.point) {a : Addr} (ha : ¬ config.Contains a)
    (memory : ByteMemory) : config.store writes memory a = memory a := by
  induction writes generalizing memory with
  | nil => rfl
  | cons w writes ih =>
      rw [store, ih (fun w' hw' => hwrites w' (List.mem_cons_of_mem w hw')),
        storePixel_frame haddr (hwrites w List.mem_cons_self) ha]

/-- What a pixel writer stores stands for the colour. -/
theorem colorOf_pixelBytes (config : FrameBufferConfig) (c : PixelColor) :
    config.colorOf (config.pixelBytes c).1 (config.pixelBytes c).2.1 (config.pixelBytes c).2.2
      = c := by
  unfold colorOf pixelBytes
  cases config.pixelFormat with
  | kPixelRGBResv8BitPerColor => rfl
  | kPixelBGRResv8BitPerColor => rfl

/-- The colour of a pixel is in its first three bytes, in the order of the format. -/
theorem pixelOf_eq (haddr : config.Addressable) {x y : Nat}
    (hx : x < config.horizontalResolution.toNat) (hy : y < config.verticalResolution.toNat)
    (memory : ByteMemory) :
    config.pixelOf memory (↑x, ↑y) = config.colorOf
      (memory (config.byteAt (4 * config.index x y)))
      (memory (config.byteAt (4 * config.index x y + 1)))
      (memory (config.byteAt (4 * config.index x y + 2))) := by
  rw [← pixelAt_eq haddr hx hy, ← pixelAt_add haddr hx hy 1, ← pixelAt_add haddr hx hy 2]
  rfl

/-- **One call of `Write` sets its pixel and leaves the others**: read back as a picture, the
memory after the call is the picture before it with the one pixel changed. The reserved fourth
byte is not read. -/
theorem storePixel_refines (haddr : config.Addressable) {w : Write} (hw : config.OnScreen w.point)
    {p : Int × Int} (hp : config.OnScreen p) (memory : ByteMemory) :
    config.pixelOf (config.storePixel w memory) p
      = Function.update (config.pixelOf memory) w.point w.ink p := by
  obtain ⟨point, c⟩ := w
  obtain ⟨x, y, rfl, hx, hy⟩ := hw.natCast
  obtain ⟨x', y', rfl, hx', hy'⟩ := hp.natCast
  have hlt : 4 * config.index x y + 4 ≤ config.size := offset_lt haddr hx hy
  have hlt' : 4 * config.index x' y' + 4 ≤ config.size := offset_lt haddr hx' hy'
  have hreach := haddr.reach
  -- two bytes coincide only if they are the same byte of the same pixel
  have hapart : ∀ {o o' : Nat}, o < 4 * config.index x y + 3 →
      o' < 4 * config.index x' y' + 3 → o' ≠ o → config.byteAt o' ≠ config.byteAt o :=
    fun ho ho' hne h => hne (byteAt_injective (by omega) (by omega) h)
  rw [storePixel_eq haddr hx hy, pixelOf_eq haddr hx' hy']
  by_cases hsame : config.index x' y' = config.index x y
  · obtain ⟨rfl, rfl⟩ := index_injective haddr hx' hx hsame
    have h01 : config.byteAt (4 * config.index x' y')
        ≠ config.byteAt (4 * config.index x' y' + 1) :=
      hapart (by omega) (by omega) (by omega)
    have h02 : config.byteAt (4 * config.index x' y')
        ≠ config.byteAt (4 * config.index x' y' + 2) :=
      hapart (by omega) (by omega) (by omega)
    have h12 : config.byteAt (4 * config.index x' y' + 1)
        ≠ config.byteAt (4 * config.index x' y' + 2) :=
      hapart (by omega) (by omega) (by omega)
    rw [Function.update_self, Function.update_self, Function.update_of_ne h12,
      Function.update_self, Function.update_of_ne h02, Function.update_of_ne h01,
      Function.update_self, colorOf_pixelBytes]
  · have hne : ((x' : Int), (y' : Int)) ≠ (↑x, ↑y) := by
      intro h
      obtain ⟨hx'', hy''⟩ := Prod.mk.inj h
      exact hsame (by rw [Int.ofNat.inj hx'', Int.ofNat.inj hy''])
    rw [Function.update_of_ne hne, pixelOf_eq haddr hx' hy']
    have hleft : ∀ o', 4 * config.index x' y' ≤ o' → o' < 4 * config.index x' y' + 3 →
        Function.update (Function.update (Function.update memory
          (config.byteAt (4 * config.index x y)) (config.pixelBytes c).1)
          (config.byteAt (4 * config.index x y + 1)) (config.pixelBytes c).2.1)
          (config.byteAt (4 * config.index x y + 2)) (config.pixelBytes c).2.2
          (config.byteAt o') = memory (config.byteAt o') := by
      intro o' hlo hhi
      rw [Function.update_of_ne (hapart (by omega) hhi (by omega)),
        Function.update_of_ne (hapart (by omega) hhi (by omega)),
        Function.update_of_ne (hapart (by omega) hhi (by omega))]
    rw [hleft _ (by omega) (by omega), hleft _ (by omega) (by omega),
      hleft _ (by omega) (by omega)]

/-- **The frame buffer shows the painted screen.** -/
theorem store_refines (haddr : config.Addressable) {writes : List Write}
    (hwrites : ∀ w ∈ writes, config.OnScreen w.point) {p : Int × Int} (hp : config.OnScreen p)
    (memory : ByteMemory) :
    config.pixelOf (config.store writes memory) p = paint writes (config.pixelOf memory) p := by
  induction writes generalizing memory with
  | nil => rfl
  | cons w writes ih =>
      rw [store, ih fun w' hw' => hwrites w' (List.mem_cons_of_mem w hw')]
      exact paint_congr (storePixel_refines haddr (hwrites w List.mem_cons_self) hp memory)

end FrameBufferConfig

end Mikanos
