import Mikanos.Usb.HidReports
import Mikanos.Graphics.Desktop

/-!
# From mouse reports to the cursor

`MouseObserver` is subscribed to the mouse driver, so each report that the driver
processes moves the cursor once.  A move erases the cursor and draws it again,
over a background that has the erase colour everywhere: erasing touches exactly
the pixels that drawing touched, so what the frame buffer shows is the
background with the cursor at its position (`showsCursor_moved`).
-/

namespace Mikanos

open Canvas Mikanos.Usb Mikanos.Xhci Mikanos.Xhci.Device Mikanos.Xhci.InputSystem

/-! ## The cursor over its background -/

namespace FrameBufferConfig

variable {config : FrameBufferConfig}

/-- The screen shows the cursor, and the erase colour everywhere else. -/
def ShowsCursor (config : FrameBufferConfig) (memory : ByteMemory) (cursor : MouseCursor) : Prop :=
  ∀ p, config.OnScreen p → config.pixelOf memory p =
    paint (drawMouseCursor cursor.position) (fun _ => cursor.eraseColor) p

/-- The calls of `Write` for a cursor on the screen are on the screen. -/
theorem CursorFits.draw {position : Vector2D} (h : config.CursorFits position) :
    ∀ w ∈ drawMouseCursor position, config.OnScreen w.point := by
  intro w hw
  exact cursorCovers_onScreen.mpr h w.point (covers_drawMouseCursor.mp ⟨w, hw, rfl⟩)

/-- Erasing writes the same pixels as drawing, so the cursor fits for it as well. -/
theorem CursorFits.erase {position : Vector2D} (h : config.CursorFits position)
    (eraseColor : PixelColor) :
    ∀ w ∈ eraseMouseCursor position eraseColor, config.OnScreen w.point := by
  intro w hw
  exact cursorCovers_onScreen.mpr h w.point (covers_eraseMouseCursor.mp ⟨w, hw, rfl⟩)

/-- Erasing the cursor is done in one colour, the one it is told, so only its pixels count and
not their order. -/
theorem eraseMouseCursor_inOneInk (position : Vector2D) (eraseColor : PixelColor) :
    InOneInk (eraseMouseCursor position eraseColor) eraseColor := by
  apply InOneInk.flatMap
  intro dy _
  apply InOneInk.flatMap
  intro dx _ w hw
  simp only at hw
  split at hw
  · rw [List.mem_singleton.mp hw]
    rfl
  · exact absurd hw List.not_mem_nil

/-- Erasing takes away what drawing has left: on an area of the erase colour the cursor leaves
no trace. -/
theorem erase_draw (position : Vector2D) (eraseColor : PixelColor) (p : Int × Int) :
    paint (eraseMouseCursor position eraseColor)
      (paint (drawMouseCursor position) fun _ => eraseColor) p = eraseColor := by
  by_cases hcovers : CursorCovers position p
  · exact paint_of_covers (eraseMouseCursor_inOneInk position eraseColor)
      (covers_eraseMouseCursor.mpr hcovers) _
  · have herased : ¬ Covers (eraseMouseCursor position eraseColor) p := fun h =>
      hcovers (covers_eraseMouseCursor.mp h)
    have hdrawn : ¬ Covers (drawMouseCursor position) p := fun h =>
      hcovers (covers_drawMouseCursor.mp h)
    rw [paint_of_not_covers herased, paint_of_not_covers hdrawn]

/-- The first cursor, drawn on an empty background. -/
theorem showsCursor_construct (haddr : config.Addressable) {memory : ByteMemory}
    {eraseColor : PixelColor} {initialPosition : Vector2D}
    (hblank : ∀ p, config.OnScreen p → config.pixelOf memory p = eraseColor)
    (hfits : config.CursorFits initialPosition) :
    config.ShowsCursor
      (config.store (MouseCursor.construct eraseColor initialPosition).1 memory)
      (MouseCursor.construct eraseColor initialPosition).2 := by
  intro p hp
  rw [MouseCursor.construct, store_refines haddr hfits.draw hp]
  exact paint_congr (hblank p hp)

/-- **A move leaves no trace**: the cursor is shown at its new position, and no byte
outside the frame buffer has changed. -/
theorem showsCursor_moved (haddr : config.Addressable) {memory : ByteMemory}
    {cursor : MouseCursor} (hshows : config.ShowsCursor memory cursor) {displacement : Vector2D}
    (hbefore : config.CursorFits cursor.position)
    (hafter : config.CursorFits (cursor.position.add displacement)) :
    config.ShowsCursor (config.store (cursor.moveRelative displacement).1 memory)
        (cursor.moveRelative displacement).2 ∧
      ∀ a, ¬ config.Contains a →
        config.store (cursor.moveRelative displacement).1 memory a = memory a := by
  have hscreen : ∀ w ∈ (cursor.moveRelative displacement).1, config.OnScreen w.point := by
    intro w hw
    rcases List.mem_append.mp hw with herase | hdraw
    · exact hbefore.erase _ w herase
    · exact hafter.draw w hdraw
  constructor
  · intro p hp
    rw [store_refines haddr hscreen hp, MouseCursor.moveRelative, paint_append]
    apply paint_congr
    calc paint (eraseMouseCursor cursor.position cursor.eraseColor) (config.pixelOf memory) p
        = paint (eraseMouseCursor cursor.position cursor.eraseColor)
            (paint (drawMouseCursor cursor.position) fun _ => cursor.eraseColor) p :=
          paint_congr (hshows p hp)
      _ = cursor.eraseColor := erase_draw cursor.position cursor.eraseColor p
  · intro a ha
    exact store_frame haddr hscreen ha memory

end FrameBufferConfig

/-! ## Observers at work -/

/-- The mouse, with what `MouseObserver` draws on. -/
structure Pointer where
  input : InputSystem
  desktop : Desktop
  memory : ByteMemory

namespace Pointer

open FrameBufferConfig

/-- `MouseObserver` for what it is told. -/
def observe (config : FrameBufferConfig) :
    List Notification → Desktop × ByteMemory → Desktop × ByteMemory
  | [], screen => screen
  | .mouseMove dx dy :: rest, (desktop, memory) =>
      let (writes, desktop) := desktop.mouseObserver dx dy
      observe config rest (desktop, config.store writes memory)
  | .keyPush _ :: rest, screen => observe config rest screen

/-- A full-length mouse report is processed, and the observer is told. -/
inductive Step (config : FrameBufferConfig) (p : Addr) (i : Fin 31) :
    Pointer → List (BitVec 8) → Pointer → Prop
  | report {s : Pointer} {bytes : List (BitVec 8)} {input : InputSystem} {desktop : Desktop}
      {memory : ByteMemory} (hstep : InputSystem.Step p i s.input (fullReport .mouse bytes) input)
      (hobserve : observe config ((input.told p).drop (s.input.told p).length)
        (s.desktop, s.memory) = (desktop, memory)) :
      Step config p i s bytes ⟨input, desktop, memory⟩

/-- A run with the contents of `buf_` at each report. -/
inductive Run (config : FrameBufferConfig) (p : Addr) (i : Fin 31) (s₀ : Pointer) :
    List (List (BitVec 8)) → Pointer → Prop
  | start : Run config p i s₀ [] s₀
  | step {buffers : List (List (BitVec 8))} {bytes : List (BitVec 8)} {s s' : Pointer}
      (hrun : Run config p i s₀ buffers s) (hstep : Step config p i s bytes s') :
      Run config p i s₀ (buffers ++ [bytes]) s'

/-- The movement in a report: its bytes 1 and 2 as signed numbers. -/
def movement (bytes : List (BitVec 8)) : Vector2D :=
  ⟨(bytes.getD 1 0).toInt, (bytes.getD 2 0).toInt⟩

/-- Where these reports lead: the start and the sums of their movements. -/
def destination (start : Vector2D) (buffers : List (List (BitVec 8))) : Vector2D :=
  ⟨start.x + (buffers.map fun bytes => (movement bytes).x).sum,
    start.y + (buffers.map fun bytes => (movement bytes).y).sum⟩

/-- Without reports the pointer stays. -/
theorem destination_nil (start : Vector2D) : destination start [] = start := by
  unfold destination
  simp only [List.map_nil, List.sum_nil, Int.add_zero]

/-- **Reports add up**: one more report moves the pointer by its own movement. -/
theorem destination_append (start : Vector2D) (buffers : List (List (BitVec 8)))
    (bytes : List (BitVec 8)) :
    destination start (buffers ++ [bytes]) = (destination start buffers).add (movement bytes) := by
  unfold destination Vector2D.add
  simp only [List.map_append, List.map_singleton, List.sum_append, List.sum_singleton,
    Int.add_assoc]

/-- The mouse driver at `p` works, and has one observer. -/
def Observed (s : Pointer) (p : Addr) (i : Fin 31) : Prop :=
  ∃ d tr, s.input.Ready p d i tr ∧ d.kind = .mouse ∧ d.numObservers = 1

variable {config : FrameBufferConfig} {p : Addr} {i : Fin 31} {s s' s₀ : Pointer}

/-- A report is told once: the observer is called with the two bytes behind the buttons, and the
driver is ready for the next report. -/
theorem Observed.told (h : s.Observed p i) {bytes : List (BitVec 8)} {input : InputSystem}
    (hstep : InputSystem.Step p i s.input (fullReport .mouse bytes) input) :
    input.told p = s.input.told p ++ [.mouseMove (bytes.getD 1 0) (bytes.getD 2 0)] ∧
      ∃ d tr, input.Ready p d i tr ∧ d.kind = .mouse ∧ d.numObservers = 1 := by
  obtain ⟨d, tr, hready, hkind, hone⟩ := h
  obtain ⟨tr', hready'⟩ := (counted_of_run hready (InputSystem.Run.start.step hstep)).ready
  have hdriver : input.dev.drivers p = some (afterReport d bytes (reportSize .mouse)) :=
    hready'.listening.driver
  refine ⟨?_, _, tr', hready', hkind, hone⟩
  rw [told_eq hdriver, told_eq hready.listening.driver]
  unfold afterReport notificationsOf mouseOnDataReceived
  rw [hkind, hone]
  rfl

/-- What the observer does about a movement. -/
theorem observe_mouseMove (config : FrameBufferConfig) (dx dy : BitVec 8) (desktop : Desktop)
    (memory : ByteMemory) :
    observe config [.mouseMove dx dy] (desktop, memory) =
      ((desktop.mouseObserver dx dy).2,
        config.store (desktop.mouseCursor.moveRelative ⟨dx.toInt, dy.toInt⟩).1 memory) := rfl

/-- The observer moves the cursor by the two signed bytes it is told. -/
theorem mouseObserver_mouseCursor (desktop : Desktop) (dx dy : BitVec 8) :
    (desktop.mouseObserver dx dy).2.mouseCursor =
      (desktop.mouseCursor.moveRelative ⟨dx.toInt, dy.toInt⟩).2 := rfl

/-- What holds after these reports. -/
structure Follows (config : FrameBufferConfig) (p : Addr) (i : Fin 31) (s₀ : Pointer)
    (buffers : List (List (BitVec 8))) (s : Pointer) : Prop where
  observed : s.Observed p i
  cursor : s.desktop.mouseCursor = { s₀.desktop.mouseCursor with
    position := destination s₀.desktop.mouseCursor.position buffers }
  shows : config.ShowsCursor s.memory s.desktop.mouseCursor
  frame : ∀ a, ¬ config.Contains a → s.memory a = s₀.memory a

/-- **Step lemma.** A report moves the cursor by its two signed bytes, erases it where it was
and draws it where it is, and changes no byte outside the frame buffer, as long as it is on the
screen before and after. -/
theorem Follows.step (haddr : config.Addressable) {buffers : List (List (BitVec 8))}
    {bytes : List (BitVec 8)} (h : Follows config p i s₀ buffers s)
    (hbefore : config.CursorFits (destination s₀.desktop.mouseCursor.position buffers))
    (hafter : config.CursorFits
      (destination s₀.desktop.mouseCursor.position (buffers ++ [bytes])))
    (hstep : Step config p i s bytes s') : Follows config p i s₀ (buffers ++ [bytes]) s' := by
  cases hstep with
  | report hstep hobserve =>
      obtain ⟨htold, hobserved⟩ := h.observed.told hstep
      have hmovement : (⟨(bytes.getD 1 0).toInt, (bytes.getD 2 0).toInt⟩ : Vector2D) =
          movement bytes := rfl
      rw [htold, List.drop_left, observe_mouseMove, hmovement] at hobserve
      obtain ⟨rfl, rfl⟩ := Prod.mk.inj hobserve
      have hposition := congrArg MouseCursor.position h.cursor
      simp only at hposition
      have hmoved : (s.desktop.mouseCursor.position.add (movement bytes)) =
          destination s₀.desktop.mouseCursor.position (buffers ++ [bytes]) := by
        rw [destination_append, hposition]
      rw [← hposition] at hbefore
      rw [← hmoved] at hafter
      obtain ⟨hshows, hframe⟩ := showsCursor_moved haddr h.shows hbefore hafter
      have hcursor : (s.desktop.mouseCursor.moveRelative (movement bytes)).2 =
          { s₀.desktop.mouseCursor with
            position := destination s₀.desktop.mouseCursor.position (buffers ++ [bytes]) } := by
        rw [MouseCursor.moveRelative, hmoved, h.cursor]
      constructor
      case observed => exact hobserved
      case cursor =>
        rw [mouseObserver_mouseCursor, hmovement]
        exact hcursor
      case shows =>
        rw [mouseObserver_mouseCursor, hmovement]
        dsimp only
        exact hshows
      case frame =>
        intro a ha
        dsimp only
        exact (hframe a ha).trans (h.frame a ha)

/-- **The cursor follows the mouse.** After full-length reports that keep the cursor
on the screen, it is at its first position plus the sums of the movements, and the
screen shows it there and the background everywhere else. -/
theorem cursor_follows (haddr : config.Addressable) (hobserved : s₀.Observed p i)
    (hshows : config.ShowsCursor s₀.memory s₀.desktop.mouseCursor)
    {buffers : List (List (BitVec 8))} (hrun : Run config p i s₀ buffers s)
    (hfits : ∀ before, before <+: buffers →
      config.CursorFits (destination s₀.desktop.mouseCursor.position before)) :
    s.desktop.mouseCursor = { s₀.desktop.mouseCursor with
        position := destination s₀.desktop.mouseCursor.position buffers } ∧
      config.ShowsCursor s.memory s.desktop.mouseCursor ∧
      ∀ a, ¬ config.Contains a → s.memory a = s₀.memory a := by
  have hfollows : Follows config p i s₀ buffers s := by
    induction hrun with
    | start =>
        refine ⟨hobserved, ?_, hshows, fun _ _ => rfl⟩
        rw [destination_nil]
    | @step buffers bytes s s' hrun hstep ih =>
        have hbefore := ih fun before hle =>
          hfits before (hle.trans (List.prefix_append _ _))
        exact hbefore.step haddr (hfits _ (List.prefix_append _ _)) (hfits _ List.prefix_rfl) hstep
  exact ⟨hfollows.cursor, hfollows.shows, hfollows.frame⟩

/-- The sample mouse with its cursor on a black screen. -/
def sample : Pointer where
  input := sampleInput .mouse
  desktop := ⟨Console.construct kDesktopFGColor kDesktopBGColor,
    (MouseCursor.construct ⟨0, 0, 0⟩ ⟨300, 200⟩).2⟩
  memory := Desktop.smallScreen.store (MouseCursor.construct ⟨0, 0, 0⟩ ⟨300, 200⟩).1 fun _ => 0

/-- The sample screen shows its cursor at the beginning. -/
theorem sample_shows :
    Desktop.smallScreen.ShowsCursor sample.memory sample.desktop.mouseCursor := by
  unfold sample
  dsimp only
  apply showsCursor_construct Desktop.smallScreen_fits.addressable
  · exact fun _ _ => rfl
  · exact ⟨⟨by decide, by decide⟩, by decide, by decide⟩

/-- A movement to the right and up: one report moves the cursor from (300, 200) to (305, 195),
and the frame buffer shows it there. -/
theorem cursor_follows_sample : ∃ s,
    Run Desktop.smallScreen 0x3000 2 sample [padded [0, 5, 251] 0] s ∧
      s.desktop.mouseCursor.position = ⟨305, 195⟩ ∧
      Desktop.smallScreen.ShowsCursor s.memory s.desktop.mouseCursor := by
  have haddr := Desktop.smallScreen_fits.addressable
  have hready := sampleInput_ready .mouse
  have hstart : Desktop.smallScreen.CursorFits ⟨300, 200⟩ :=
    ⟨⟨by decide, by decide⟩, by decide, by decide⟩
  obtain ⟨input, hstep⟩ := hready.can_receive (List.cons_ne_nil _ _) (by decide)
    (padded_length (r := [0, 5, 251]) (by decide) 0) (k := 3) (by decide)
  have hrun : Run Desktop.smallScreen 0x3000 2 sample [padded [0, 5, 251] 0] _ :=
    Run.start.step (.report hstep rfl)
  obtain ⟨hcursor, hshows, -⟩ := cursor_follows haddr ⟨_, _, hready, rfl, rfl⟩ sample_shows
    hrun (by
      rw [Desktop.forall_prefix_cons]
      refine ⟨hstart, fun before hb => ?_⟩
      rw [List.prefix_nil.mp hb]
      exact ⟨⟨by decide, by decide⟩, by decide, by decide⟩)
  exact ⟨_, hrun, congrArg MouseCursor.position hcursor, hshows⟩

end Pointer

end Mikanos
