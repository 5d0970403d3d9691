import Mikanos.Graphics.ConsoleText
import Mikanos.Graphics.MouseCursor

/-!
# Drawing on the desktop

Once `KernelMain` has made the console and the cursor, only two things draw:
`printk` and the log by way of `Console::PutString`, and the mouse driver by
way of `MouseObserver`.  A run is any sequence of their calls.

The console keeps to its area, which is on the screen.  The cursor goes where
the displacements take it, so the drawing stays inside the frame buffer exactly
if every position on the way leaves the cursor's rectangle on the screen
(`run_staysInside_iff`).
-/

namespace Mikanos

open Canvas

/-- `kDesktopBGColor`. -/
def kDesktopBGColor : PixelColor := ⟨45, 118, 237⟩

/-- `kDesktopFGColor`. -/
def kDesktopFGColor : PixelColor := ⟨255, 255, 255⟩

/-- `"Welcome to MikanOS!\n"`. -/
def welcome : CString where
  chars := ("Welcome to MikanOS!\n".toList.map fun c => BitVec.ofNat 8 c.toNat)
  noNul := by decide +kernel

/-- What draws on the desktop: `*console` and `*mouse_cursor`. -/
structure Desktop where
  console : Console
  mouseCursor : MouseCursor

/-- A call that draws. -/
inductive DrawCall where
  /-- `console->PutString(s)`. -/
  | putString (s : CString)
  /-- `MouseObserver(displacement_x, displacement_y)`. -/
  | mouseObserver (displacementX displacementY : BitVec 8)

namespace Desktop

/-- `MouseObserver(displacement_x, displacement_y)`. -/
def mouseObserver (self : Desktop) (displacementX displacementY : BitVec 8) :
    List Write × Desktop :=
  let (writes, mouseCursor) :=
    self.mouseCursor.moveRelative ⟨displacementX.toInt, displacementY.toInt⟩
  (writes, { self with mouseCursor := mouseCursor })

variable (hankaku : HankakuBin)

/-- One call. -/
def call (self : Desktop) : DrawCall → Except Fault (List Write × Desktop)
  | .putString s =>
      (self.console.putString hankaku s).map fun (writes, console) =>
        (writes, { self with console := console })
  | .mouseObserver dx dy => .ok (self.mouseObserver dx dy)

/-- One call after the other. -/
def calls (self : Desktop) : List DrawCall → Except Fault (List Write × Desktop)
  | [] => .ok ([], self)
  | c :: rest =>
      (self.call hankaku c).bind fun (drawn, self) =>
      (calls self rest).map fun (writes, self) => (drawn ++ writes, self)

/-- `KernelMain` from the construction of the console to that of the cursor. -/
def boot : Except Fault (List Write × Desktop) :=
  ((Console.construct kDesktopFGColor kDesktopBGColor).putString hankaku welcome).map
    fun (greeting, console) =>
      let (drawn, mouseCursor) := MouseCursor.construct kDesktopBGColor ⟨300, 200⟩
      (greeting ++ drawn, ⟨console, mouseCursor⟩)

/-- All that is drawn from the construction of the console on. -/
def run (cs : List DrawCall) : Except Fault (List Write × Desktop) :=
  (boot hankaku).bind fun (drawn, self) =>
  (self.calls hankaku cs).map fun (writes, self) => (drawn ++ writes, self)

end Desktop

/-- How far a call moves the cursor. -/
def DrawCall.displacement : DrawCall → Vector2D
  | .putString _ => ⟨0, 0⟩
  | .mouseObserver dx dy => ⟨dx.toInt, dy.toInt⟩

/-- Where the cursor is after the calls: the start plus all displacements. -/
def cursorAfter (start : Vector2D) (cs : List DrawCall) : Vector2D :=
  cs.foldl (fun position c => position.add c.displacement) start

namespace FrameBufferConfig

/-- The drawing is on the screen, at offsets within the frame buffer, and
changes no byte outside it. -/
structure StaysInside (config : FrameBufferConfig) (writes : List Write) : Prop where
  onScreen : ∀ w ∈ writes, config.OnScreen w.point
  offset : ∀ w ∈ writes, (config.offset w.point.1 w.point.2).toNat + 4 ≤ config.size
  frame : ∀ (memory : ByteMemory) (a : Addr), ¬ config.Contains a →
    config.store writes memory a = memory a

variable {config : FrameBufferConfig}

/-- A drawing stays inside the frame buffer exactly if every pixel that it covers is on the
screen: the four bytes of such a pixel lie in the buffer, so no byte outside it changes. -/
theorem staysInside_iff (hfits : config.Fits) {writes : List Write} :
    config.StaysInside writes ↔ ∀ p, Covers writes p → config.OnScreen p := by
  constructor
  · intro h p ⟨w, hw, hp⟩
    rw [← hp]
    exact h.onScreen w hw
  · intro h
    have hscreen : ∀ w ∈ writes, config.OnScreen w.point := fun w hw => h _ ⟨w, hw, rfl⟩
    refine ⟨hscreen, ?_, fun memory a ha => store_frame hfits.addressable hscreen ha memory⟩
    intro w hw
    obtain ⟨x, y, hp, hx, hy⟩ := (hscreen w hw).natCast
    rw [hp, offset_toNat hfits.addressable hx hy]
    exact offset_lt hfits.addressable hx hy

/-- The console's area is on the screen. -/
theorem onScreen_of_inArea (hfits : config.Fits) {p : Int × Int} (hp : Console.InArea p) :
    config.OnScreen p := by
  have hwidth := hfits.width
  have hheight := hfits.height
  have hrows : Console.kRows = 25 := rfl
  have hcolumns : Console.kColumns = 80 := rfl
  obtain ⟨⟨hx0, hx⟩, hy0, hy⟩ := hp
  refine ⟨⟨hx0, ?_⟩, hy0, ?_⟩ <;> omega

end FrameBufferConfig

namespace Desktop

open FrameBufferConfig

variable {hankaku : HankakuBin} {config : FrameBufferConfig} {w : TextWindow (BitVec 8)}

/-- What holds after every prefix of a run holds before the first call and after every prefix of
the rest that follows it. -/
theorem forall_prefix_cons {α : Type} {P : List α → Prop} {c : α} {cs : List α} :
    (∀ before, before <+: c :: cs → P before) ↔
      P [] ∧ ∀ before, before <+: cs → P (c :: before) := by
  constructor
  · intro h
    exact ⟨h [] List.nil_prefix, fun before hb => h _ ((List.prefix_cons_inj c).mpr hb)⟩
  · intro ⟨hnil, hcons⟩ before hb
    rcases List.prefix_cons_iff.mp hb with rfl | ⟨rest, rfl, hrest⟩
    · exact hnil
    · exact hcons rest hrest

/-- One call draws on the screen as long as the cursor stays there. The text of the console is
always on the screen, so only where the cursor is decides. -/
theorem call_onScreen (hfits : config.Fits) (c : DrawCall) (self : Desktop)
    (hshows : Console.Shows w self.console) :
    ∃ drawn self' w', self.call hankaku c = .ok (drawn, self') ∧
      Console.Shows w' self'.console ∧
      self'.mouseCursor.position = self.mouseCursor.position.add c.displacement ∧
      (config.CursorFits self.mouseCursor.position →
        ((∀ p, Covers drawn p → config.OnScreen p) ↔
          config.CursorFits self'.mouseCursor.position)) := by
  cases c with
  | putString s =>
      obtain ⟨drawn, console, hput, hstep⟩ :=
        @Console.putBytes_step hankaku _ _ hshows s.chars s.noNul
      refine ⟨drawn, { self with console := console }, _, ?_, hstep.shows, ?_, fun hcursor => ?_⟩
      · rw [call, Console.putString, CString.bytes, hput]
        rfl
      · simp [DrawCall.displacement, Vector2D.add]
      · exact iff_of_true (fun p hp => onScreen_of_inArea hfits (hstep.inArea p hp)) hcursor
  | mouseObserver dx dy =>
      refine ⟨(self.mouseObserver dx dy).1, (self.mouseObserver dx dy).2, w, rfl, hshows, rfl,
        fun hcursor => ?_⟩
      have hwrites : (self.mouseObserver dx dy).1
          = eraseMouseCursor self.mouseCursor.position self.mouseCursor.eraseColor ++
            drawMouseCursor (self.mouseObserver dx dy).2.mouseCursor.position := rfl
      have hdrawn : ∀ p, Covers (self.mouseObserver dx dy).1 p ↔
          CursorCovers self.mouseCursor.position p ∨
            CursorCovers (self.mouseObserver dx dy).2.mouseCursor.position p := by
        intro p
        rw [hwrites, covers_append, covers_eraseMouseCursor, covers_drawMouseCursor]
      simp only [hdrawn]
      constructor
      · intro hall
        exact cursorCovers_onScreen.mp fun p hp => hall p (Or.inr hp)
      · intro hnext p hp
        rcases hp with hp | hp
        · exact cursorCovers_onScreen.mpr hcursor p hp
        · exact cursorCovers_onScreen.mpr hnext p hp

/-- **What the calls draw.**  By induction on the calls: the console keeps to
its area, and a move erases the cursor where it was and draws it where it then
is. -/
theorem calls_onScreen (hfits : config.Fits) (cs : List DrawCall) (self : Desktop)
    (hshows : Console.Shows w self.console) :
    ∃ writes self', self.calls hankaku cs = .ok (writes, self') ∧
      ((config.CursorFits self.mouseCursor.position ∧
          ∀ p, Covers writes p → config.OnScreen p) ↔
        ∀ before, before <+: cs →
          config.CursorFits (cursorAfter self.mouseCursor.position before)) := by
  induction cs generalizing w self with
  | nil =>
      refine ⟨[], self, rfl, ?_⟩
      constructor
      · intro hall before hb
        rw [List.prefix_nil.mp hb]
        exact hall.1
      · intro h
        exact ⟨h [] List.nil_prefix, fun p hp => absurd hp not_covers_nil⟩
  | cons c cs ih =>
      obtain ⟨drawn, next, w', hcall, hnext, hposition, hdrawn⟩ :=
        @call_onScreen hankaku _ _ hfits c self hshows
      obtain ⟨writes, self', hrest, hiff⟩ := ih next hnext
      have hafter : ∀ before, cursorAfter self.mouseCursor.position (c :: before)
          = cursorAfter next.mouseCursor.position before := by
        intro before
        rw [hposition]
        rfl
      refine ⟨drawn ++ writes, self', ?_, ?_⟩
      · rw [calls, hcall, bind_ok]
        simp only
        rw [hrest]
        rfl
      · rw [forall_prefix_cons]
        simp only [hafter, ← hiff, covers_append]
        constructor
        · intro h
          obtain ⟨hcursor, hall⟩ := h
          exact ⟨hcursor, (hdrawn hcursor).mp fun p hp => hall p (Or.inl hp),
            fun p hp => hall p (Or.inr hp)⟩
        · intro h
          obtain ⟨hcursor, hmoved, hall⟩ := h
          refine ⟨hcursor, fun p hp => ?_⟩
          rcases hp with hp | hp
          · exact (hdrawn hcursor).mpr hmoved p hp
          · exact hall p hp

/-- The first cursor is on the screen. -/
theorem start_cursorFits (hfits : config.Fits) : config.CursorFits ⟨300, 200⟩ := by
  have hwidth := hfits.width
  have hheight := hfits.height
  have hcursorWidth : kMouseCursorWidth = 15 := rfl
  have hcursorHeight : kMouseCursorHeight = 24 := rfl
  refine ⟨⟨?_, ?_⟩, ?_, ?_⟩ <;> simp only <;> omega

/-- A run draws on the screen exactly if the cursor is on the screen before each call and at the
end, by induction over the calls. -/
theorem run_onScreen (hfits : config.Fits) (cs : List DrawCall) :
    ∃ writes self, run hankaku cs = .ok (writes, self) ∧
      ((∀ p, Covers writes p → config.OnScreen p) ↔
        ∀ before, before <+: cs → config.CursorFits (cursorAfter ⟨300, 200⟩ before)) := by
  obtain ⟨greeting, console, hput, hstep⟩ := @Console.putBytes_step hankaku _ _
    (Console.construct_shows kDesktopFGColor kDesktopBGColor) welcome.chars welcome.noNul
  obtain ⟨writes, self, hcalls, hiff⟩ := @calls_onScreen hankaku _ _ hfits cs
    ⟨console, (MouseCursor.construct kDesktopBGColor ⟨300, 200⟩).2⟩ hstep.shows
  have hstart := start_cursorFits hfits
  refine ⟨(greeting ++ drawMouseCursor ⟨300, 200⟩) ++ writes, self, ?_, ?_⟩
  · rw [run, boot, Console.putString, CString.bytes, hput]
    simp only [Except.map, bind_ok]
    rw [hcalls]
    rfl
  · have hposition : (MouseCursor.construct kDesktopBGColor ⟨300, 200⟩).2.position
        = ⟨300, 200⟩ := rfl
    simp only [hposition] at hiff
    rw [← hiff]
    simp only [covers_append, covers_drawMouseCursor]
    constructor
    · intro hall
      exact ⟨hstart, fun p hp => hall p (Or.inr hp)⟩
    · intro h p hp
      obtain ⟨-, hall⟩ := h
      rcases hp with (hp | hp) | hp
      · exact onScreen_of_inArea hfits (hstep.inArea p hp)
      · exact cursorCovers_onScreen.mpr hstart p hp
      · exact hall p hp

variable (hankaku) in
/-- **When drawing stays inside the frame buffer**: exactly if the rectangle of the cursor is on
the screen at the start and after every call. Each run returns, and the text of the console is
on the screen in any case. -/
theorem run_staysInside_iff (hfits : config.Fits) (cs : List DrawCall) :
    ∃ writes self, run hankaku cs = .ok (writes, self) ∧
      (config.StaysInside writes ↔
        ∀ before, before <+: cs → config.CursorFits (cursorAfter ⟨300, 200⟩ before)) := by
  obtain ⟨writes, self, hrun, hiff⟩ := @run_onScreen hankaku config hfits cs
  exact ⟨writes, self, hrun, (staysInside_iff hfits).trans hiff⟩

/-- The smallest screen. -/
def smallScreen : FrameBufferConfig where
  frameBuffer := 0x80000000
  pixelsPerScanLine := 640
  horizontalResolution := 640
  verticalResolution := 400
  pixelFormat := .kPixelRGBResv8BitPerColor

theorem smallScreen_fits : smallScreen.Fits where
  width := by decide
  height := by decide
  line := by decide
  reach := by decide

/-- A line of text and a move that keeps the cursor on the screen: the run returns and every
pixel is stored inside the frame buffer. -/
theorem run_staysInside_iff_small :
    ∃ writes self, run (Vector.replicate hankakuBinSize 0xff)
        [.putString welcome, .mouseObserver 127 127] = .ok (writes, self) ∧
      smallScreen.StaysInside writes := by
  obtain ⟨writes, self, hrun, hiff⟩ := run_staysInside_iff
    (Vector.replicate hankakuBinSize 0xff) smallScreen_fits
    [.putString welcome, .mouseObserver 127 127]
  refine ⟨writes, self, hrun, hiff.mpr ?_⟩
  rw [forall_prefix_cons, forall_prefix_cons]
  refine ⟨?_, ?_, ?_⟩
  · exact ⟨⟨by decide, by decide⟩, by decide, by decide⟩
  · exact ⟨⟨by decide, by decide⟩, by decide, by decide⟩
  · intro before hb
    rw [List.prefix_nil.mp hb]
    exact ⟨⟨by decide, by decide⟩, by decide, by decide⟩

/-- **The cursor leaves the frame buffer.**  Two moves up by 128 from line 200
draw its corner on line -56, 4 GiB behind the start of the buffer. -/
theorem cursor_leaves_frame_buffer :
    ∃ writes self, run (Vector.replicate hankakuBinSize 0xff)
        [.mouseObserver 0 (-128), .mouseObserver 0 (-128)] = .ok (writes, self) ∧
      Covers writes (300, -56) ∧
      ¬ smallScreen.Contains (smallScreen.pixelAt 300 (-56)) ∧
      ¬ smallScreen.StaysInside writes := by
  obtain ⟨greeting, console, hput, hstep⟩ :=
    @Console.putBytes_step (Vector.replicate hankakuBinSize 0xff) _ _
      (Console.construct_shows kDesktopFGColor kDesktopBGColor) welcome.chars welcome.noNul
  have hcorner : Covers (drawMouseCursor ⟨300, -56⟩) (300, -56) :=
    covers_drawMouseCursor.mpr ⟨0, by decide, 0, by decide, by decide +kernel, rfl⟩
  have hcovers : Covers ((greeting ++ drawMouseCursor ⟨300, 200⟩) ++
      ((eraseMouseCursor ⟨300, 200⟩ kDesktopBGColor ++ drawMouseCursor ⟨300, 72⟩) ++
        ((eraseMouseCursor ⟨300, 72⟩ kDesktopBGColor ++ drawMouseCursor ⟨300, -56⟩) ++ [])))
      (300, -56) := by
    simp only [covers_append]
    exact Or.inr (Or.inr (Or.inl (Or.inr hcorner)))
  refine ⟨_, ⟨console, ⟨kDesktopBGColor, ⟨300, -56⟩⟩⟩, ?_, hcovers, ?_, ?_⟩
  · rw [run, boot, Console.putString, CString.bytes, hput]
    rfl
  · intro hcontains
    obtain ⟨o, ho, h⟩ := hcontains
    have hsize : smallScreen.size = 1024000 := by decide
    have hoffset : (smallScreen.offset 300 (-56)).setWidth 64 = BitVec.ofNat 64 o :=
      (BitVec.add_right_inj _).mp h
    have hvalue : ((smallScreen.offset 300 (-56)).setWidth 64).toNat = 4294825136 := by decide
    rw [hoffset, BitVec.toNat_ofNat] at hvalue
    omega
  · intro h
    have hscreen := (staysInside_iff smallScreen_fits).mp h (300, -56) hcovers
    exact absurd hscreen.2.1 (by decide)

end Desktop

end Mikanos
