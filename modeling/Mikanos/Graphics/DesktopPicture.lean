import Mikanos.Graphics.PointerInput

/-!
# The picture on the desktop

`KernelMain` fills the screen with the desktop and the task bar, makes the
console on top and then the cursor.  The console redraws what it changes; the
cursor, when it moves, leaves the background colour where it was, whatever was
there before.  So each pixel shows the desktop, with the text that the console
now has on it, or the cursor's layer, depending on which of the two drew there
last (`run_redrawn`).  The console relies on a blank area to start with, which
the desktop leaves only on screens of 450 lines and more (`blank_iff`).
-/

namespace Mikanos

open Canvas

/-- The fills of `KernelMain`. -/
def drawDesktop (config : FrameBufferConfig) : List Write :=
  let kFrameWidth := config.horizontalResolution.toInt
  let kFrameHeight := config.verticalResolution.toInt
  fillRectangle 0 0 kFrameWidth.toNat (kFrameHeight - 50).toNat kDesktopBGColor ++
  (fillRectangle 0 (kFrameHeight - 50) kFrameWidth.toNat 50 ⟨1, 8, 17⟩ ++
  (fillRectangle 0 (kFrameHeight - 50) (kFrameWidth.tdiv 5).toNat 50 ⟨80, 80, 80⟩ ++
  drawRectangle 10 (kFrameHeight - 40) 30 30 ⟨160, 160, 160⟩))

/-- The desktop as the fills leave it: above the task bar the background, and on the bar the
outline of a button, the field around it and the rest. -/
def wallpaper (config : FrameBufferConfig) (p : Int × Int) : PixelColor :=
  let width : Int := config.horizontalResolution.toNat
  let height : Int := config.verticalResolution.toNat
  if OnOutline 10 (height - 40) 30 30 p then ⟨160, 160, 160⟩
  else if p.2 < height - 50 then kDesktopBGColor
  else if p.1 < width / 5 then ⟨80, 80, 80⟩
  else ⟨1, 8, 17⟩

/-- What draws on the screen. -/
inductive Layer where
  /-- The desktop with the console's text. -/
  | desktop
  | cursor
  deriving DecidableEq, Repr

/-- The layer of a call. -/
def DrawCall.layer : DrawCall → Layer
  | .putString _ => .desktop
  | .mouseObserver _ _ => .cursor

instance (p : Int × Int) : Decidable (Console.InArea p) :=
  inferInstanceAs (Decidable ((0 ≤ p.1 ∧ p.1 < 8 * (Console.kColumns : Int)) ∧
    0 ≤ p.2 ∧ p.2 < 16 * (Console.kRows : Int)))

namespace Desktop

/-- How each layer looks. -/
def picture (hankaku : HankakuBin) (config : FrameBufferConfig) (self : Desktop) :
    Layer → Int × Int → PixelColor
  | .desktop, p =>
      if Console.InArea p then self.console.render hankaku p.1.toNat p.2.toNat
      else wallpaper config p
  | .cursor, p =>
      paint (drawMouseCursor self.mouseCursor.position) (fun _ => self.mouseCursor.eraseColor) p

/-- One call after the other, with the layer of each. -/
def layers (hankaku : HankakuBin) (self : Desktop) :
    List DrawCall → Except Fault (List (Layer × List Write) × Desktop)
  | [] => .ok ([], self)
  | c :: rest =>
      (self.call hankaku c).bind fun (drawn, self) =>
      (layers hankaku self rest).map fun (above, self) => ((c.layer, drawn) :: above, self)

/-- The strings among the calls. -/
def stringsOf : List DrawCall → List CString
  | [] => []
  | .putString s :: rest => s :: stringsOf rest
  | .mouseObserver _ _ :: rest => stringsOf rest

variable {hankaku : HankakuBin} {config : FrameBufferConfig} {w : TextWindow (BitVec 8)}

/-! ## What a call changes -/

/-- A point of the area by its natural coordinates. -/
theorem exists_of_inArea {p : Int × Int} (h : Console.InArea p) :
    ∃ x y : Nat, p = ((x : Int), (y : Int)) ∧ x < 8 * Console.kColumns ∧
      y < 16 * Console.kRows := by
  obtain ⟨px, py⟩ := p
  obtain ⟨⟨hx0, hx⟩, hy0, hy⟩ := h
  obtain ⟨x, rfl⟩ := Int.eq_ofNat_of_zero_le hx0
  obtain ⟨y, rfl⟩ := Int.eq_ofNat_of_zero_le hy0
  simp only at hx hy
  exact ⟨x, y, rfl, by omega, by omega⟩

/-- Text appears where it is drawn and nowhere else: the drawn pixels show the new text, and
where nothing is drawn both layers are as before. -/
theorem redraws_console {self : Desktop} {drawn : List Write} {console : Console}
    (hstep : Console.Step hankaku w drawn self.console console) :
    Redraws (picture hankaku config) .desktop drawn self { self with console := console } where
  shown := by
    intro p hp canvas
    have harea := hstep.inArea p hp
    obtain ⟨x, y, rfl, hx, hy⟩ := exists_of_inArea harea
    have hscreen := hstep.displays
      (fun q => self.console.render hankaku q.1.toNat q.2.toNat) (fun _ _ _ _ => rfl) x y hx hy
    rw [picture, if_pos harea, paint_eq_of_covers hp canvas]
    exact hscreen
  kept := by
    intro p hp l
    cases l with
    | cursor => rfl
    | desktop =>
        rw [picture, picture]
        split
        case isFalse => rfl
        case isTrue harea =>
          obtain ⟨x, y, rfl, hx, hy⟩ := exists_of_inArea harea
          have hscreen := hstep.displays
            (fun q => self.console.render hankaku q.1.toNat q.2.toNat) (fun _ _ _ _ => rfl)
            x y hx hy
          rw [paint_of_not_covers hp] at hscreen
          exact hscreen.symm

/-- A move shows the cursor at its new place and the erase colour where it was, and where
nothing is drawn both layers are as before. -/
theorem redraws_cursor (self : Desktop) (dx dy : BitVec 8) :
    Redraws (picture hankaku config) .cursor (self.mouseObserver dx dy).1 self
      (self.mouseObserver dx dy).2 where
  shown := by
    intro p hp canvas
    have hwrites : (self.mouseObserver dx dy).1
        = eraseMouseCursor self.mouseCursor.position self.mouseCursor.eraseColor ++
          drawMouseCursor (self.mouseObserver dx dy).2.mouseCursor.position := rfl
    have hcolor : (self.mouseObserver dx dy).2.mouseCursor.eraseColor =
        self.mouseCursor.eraseColor := rfl
    rw [hwrites] at hp ⊢
    rw [paint_append, picture, hcolor]
    rcases covers_append.mp hp with herased | hdrawn
    · apply paint_congr
      exact paint_of_covers (FrameBufferConfig.eraseMouseCursor_inOneInk _ _) herased _
    · exact paint_eq_of_covers hdrawn _ _
  kept := by
    intro p hp l
    cases l with
    | desktop => rfl
    | cursor =>
        have herased : ¬ Covers (eraseMouseCursor self.mouseCursor.position
            self.mouseCursor.eraseColor) p := fun h => hp (covers_append.mpr (Or.inl h))
        have hdrawn : ¬ Covers (drawMouseCursor
            (self.mouseObserver dx dy).2.mouseCursor.position) p :=
          fun h => hp (covers_append.mpr (Or.inr h))
        have hbefore : ¬ Covers (drawMouseCursor self.mouseCursor.position) p := by
          rw [covers_drawMouseCursor]
          rwa [covers_eraseMouseCursor] at herased
        rw [picture, picture, paint_of_not_covers hdrawn, paint_of_not_covers hbefore]
        rfl

/-- The text that the calls make of the window. -/
def windowAfter (w : TextWindow (BitVec 8)) (cs : List DrawCall) : TextWindow (BitVec 8) :=
  ((stringsOf cs).flatMap CString.chars).foldl
    (TextWindow.read newlineChar Console.room) w

/-- One call draws on its own layer, text on the desktop and a move on the cursor, and where it
does not draw both layers are as before. -/
theorem call_redraws (c : DrawCall) {self : Desktop} (hshows : Console.Shows w self.console) :
    ∃ drawn self', self.call hankaku c = .ok (drawn, self') ∧
      Console.Shows (windowAfter w [c]) self'.console ∧
      self'.mouseCursor.position = self.mouseCursor.position.add c.displacement ∧
      Redraws (picture hankaku config) c.layer drawn self self' := by
  cases c with
  | putString s =>
      obtain ⟨drawn, console, hput, hstep⟩ :=
        @Console.putBytes_step hankaku _ _ hshows s.chars s.noNul
      refine ⟨drawn, { self with console := console }, ?_, ?_, ?_, redraws_console hstep⟩
      · rw [call, Console.putString, CString.bytes, hput]
        rfl
      · rw [windowAfter, stringsOf, stringsOf, List.flatMap_singleton]
        exact hstep.shows
      · simp [DrawCall.displacement, Vector2D.add]
  | mouseObserver dx dy =>
      exact ⟨_, _, rfl, hshows, rfl, redraws_cursor self dx dy⟩

theorem windowAfter_cons (c : DrawCall) (cs : List DrawCall) :
    windowAfter w (c :: cs) = windowAfter (windowAfter w [c]) cs := by
  cases c with
  | putString s =>
      simp only [windowAfter, stringsOf, List.flatMap_cons, List.flatMap_nil, List.append_nil,
        List.foldl_append]
  | mouseObserver dx dy => rfl

/-- **What the calls do**, by induction on them: they draw layer by layer, and the console has
what was passed to it. -/
theorem layers_redrawn (cs : List DrawCall) {self : Desktop}
    (hshows : Console.Shows w self.console) :
    ∃ drawn self', self.layers hankaku cs = .ok (drawn, self') ∧
      self.calls hankaku cs = .ok (strokesOf drawn, self') ∧
      Console.Shows (windowAfter w cs) self'.console ∧
      self'.mouseCursor.position = cursorAfter self.mouseCursor.position cs ∧
      Redrawn (picture hankaku config) self drawn self' := by
  induction cs generalizing w self with
  | nil => exact ⟨[], self, rfl, rfl, hshows, rfl, .refl self⟩
  | cons c cs ih =>
      obtain ⟨drawn, next, hcall, hnext, hmoved, hredraws⟩ :=
        @call_redraws hankaku config _ c _ hshows
      obtain ⟨above, self', hlayers, hcalls, hshows', hposition, hredrawn⟩ := ih hnext
      refine ⟨(c.layer, drawn) :: above, self', ?_, ?_, ?_, ?_, .step hredraws hredrawn⟩
      · rw [layers, hcall, bind_ok]
        simp only
        rw [hlayers]
        rfl
      · rw [calls, hcall, bind_ok]
        simp only
        rw [hcalls]
        rfl
      · rw [windowAfter_cons]
        exact hshows'
      · rw [hposition, hmoved]
        rfl

/-! ## From the fills to the first cursor -/

/-- The resolutions, which the source passes on as `int`, are the same numbers as without a sign
on a screen that fits. -/
theorem resolution_toInt (hfits : config.Fits) :
    config.horizontalResolution.toInt = config.horizontalResolution.toNat ∧
      config.verticalResolution.toInt = config.verticalResolution.toNat := by
  have hwidth := hfits.width
  have hheight := hfits.height
  have hline := hfits.line
  have hreach := hfits.reach
  rw [FrameBufferConfig.size, Nat.mul_assoc] at hreach
  have hpixels : config.horizontalResolution.toNat * config.verticalResolution.toNat ≤
      config.pixelsPerScanLine.toNat * config.verticalResolution.toNat :=
    Nat.mul_le_mul_right _ hline
  have hcolumns : config.horizontalResolution.toNat * 400 ≤
      config.horizontalResolution.toNat * config.verticalResolution.toNat :=
    Nat.mul_le_mul_left _ hheight
  have hrows : 640 * config.verticalResolution.toNat ≤
      config.horizontalResolution.toNat * config.verticalResolution.toNat :=
    Nat.mul_le_mul_right _ hwidth
  exact ⟨BitVec.toInt_eq_toNat_of_lt (by omega), BitVec.toInt_eq_toNat_of_lt (by omega)⟩

/-- The fills of `DrawDesktop` with the resolutions as natural numbers, so that the areas of the
desktop, the task bar and the button can be compared. -/
theorem drawDesktop_eq (hfits : config.Fits) :
    drawDesktop config =
      fillRectangle 0 0 config.horizontalResolution.toNat
        (config.verticalResolution.toNat - 50) kDesktopBGColor ++
      (fillRectangle 0 (config.verticalResolution.toNat - 50) config.horizontalResolution.toNat 50
        ⟨1, 8, 17⟩ ++
      (fillRectangle 0 (config.verticalResolution.toNat - 50)
        (config.horizontalResolution.toNat / 5) 50 ⟨80, 80, 80⟩ ++
      drawRectangle 10 (config.verticalResolution.toNat - 40) 30 30 ⟨160, 160, 160⟩)) := by
  obtain ⟨hx, hy⟩ := resolution_toInt hfits
  have hheight := hfits.height
  have habove : ((config.verticalResolution.toNat : Int) - 50).toNat =
      config.verticalResolution.toNat - 50 := by omega
  have hfifth : ((config.horizontalResolution.toNat : Int).tdiv 5).toNat =
      config.horizontalResolution.toNat / 5 := rfl
  rw [drawDesktop, hx, hy, habove, hfifth, Int.toNat_natCast]

/-- The fills keep to the screen: each of them lies within the resolutions, so no pixel is
stored elsewhere. -/
theorem drawDesktop_onScreen (hfits : config.Fits) :
    ∀ w ∈ drawDesktop config, config.OnScreen w.point := by
  have hwidth := hfits.width
  have hheight := hfits.height
  suffices hcovers : ∀ p, Covers (drawDesktop config) p → config.OnScreen p from
    fun w hw => hcovers _ ⟨w, hw, rfl⟩
  intro p hp
  rw [drawDesktop_eq hfits] at hp
  simp only [covers_append, covers_fillRectangle, covers_drawRectangle, OnOutline] at hp
  refine ⟨⟨?_, ?_⟩, ?_, ?_⟩ <;> omega

/-- **The fills leave the desktop**, whatever was on the screen before: every pixel has the
colour of the last fill that reaches it, which is what `wallpaper` says. -/
theorem paint_drawDesktop (hfits : config.Fits) {p : Int × Int} (hp : config.OnScreen p)
    (screen : Screen) : paint (drawDesktop config) screen p = wallpaper config p := by
  have hheight := hfits.height
  obtain ⟨⟨hx0, hx1⟩, hy0, hy1⟩ := hp
  rw [drawDesktop_eq hfits]
  simp only [paint_append]
  rw [paint_uniform (inOneInk_drawRectangle _ _ _ _ _),
    paint_uniform (inOneInk_fillRectangle _ _ _ _ _),
    paint_uniform (inOneInk_fillRectangle _ _ _ _ _),
    paint_uniform (inOneInk_fillRectangle _ _ _ _ _)]
  simp only [covers_fillRectangle, covers_drawRectangle, wallpaper]
  by_cases hbutton : OnOutline 10 (config.verticalResolution.toNat - 40) 30 30 p
  · rw [if_pos hbutton, if_pos hbutton]
  rw [if_neg hbutton, if_neg hbutton]
  by_cases habove : p.2 < (config.verticalResolution.toNat : Int) - 50
  · rw [if_pos habove, if_neg (by omega), if_neg (by omega), if_pos (by omega)]
  rw [if_neg habove]
  by_cases hfield : p.1 < (config.horizontalResolution.toNat : Int) / 5
  · rw [if_pos hfield, if_pos (by omega)]
  · rw [if_neg hfield, if_neg (by omega), if_pos (by omega)]

/-- **The console's area is blank to start with** exactly if the task bar is below it: its 25
rows of 16 pixels end at 400 and the bar takes the lowest 50, so 450 lines are enough and no
fewer are. -/
theorem blank_iff (hfits : config.Fits) :
    (∀ p, Console.InArea p → wallpaper config p = kDesktopBGColor) ↔
      450 ≤ config.verticalResolution.toNat := by
  have hwidth := hfits.width
  have hheight := hfits.height
  have hrows : Console.kRows = 25 := rfl
  have hcolumns : Console.kColumns = 80 := rfl
  constructor
  · intro h
    by_contra hlow
    -- the bar right of its first field, in the last line of the console
    have hbar := h (639, 399) ⟨⟨by decide, by decide⟩, by decide, by decide⟩
    have hcolor : wallpaper config (639, 399) = ⟨80, 80, 80⟩ ∨
        wallpaper config (639, 399) = ⟨1, 8, 17⟩ := by
      rw [wallpaper, if_neg (by rw [OnOutline]; omega), if_neg (by simp only; omega)]
      split
      · exact Or.inl rfl
      · exact Or.inr rfl
    rw [hbar] at hcolor
    exact absurd hcolor (by decide)
  · rintro h p ⟨⟨hx0, hx⟩, hy0, hy⟩
    rw [wallpaper, if_neg (by rw [OnOutline]; omega), if_pos (by omega)]

/-- The console and the cursor when both are made and nothing is drawn of them yet. -/
def constructed : Desktop where
  console := Console.construct kDesktopFGColor kDesktopBGColor
  mouseCursor := (MouseCursor.construct kDesktopBGColor ⟨300, 200⟩).2

theorem constructed_shows : Console.Shows TextWindow.empty constructed.console :=
  Console.construct_shows kDesktopFGColor kDesktopBGColor

/-- A console without text is a blank area, so the picture to start with is the desktop that
`DrawDesktop` has left. -/
theorem picture_constructed {p : Int × Int}
    (hp : Console.InArea p → wallpaper config p = kDesktopBGColor) :
    picture hankaku config constructed .desktop p = wallpaper config p := by
  rw [picture]
  split
  case isFalse => rfl
  case isTrue harea =>
    rw [hp harea]
    obtain ⟨x, y, rfl, hx, hy⟩ := exists_of_inArea harea
    have hempty : (TextWindow.empty : TextWindow (BitVec 8)).line (y / 16) = [] := by
      cases y / 16 with
      | zero => rfl
      | succ i => rfl
    change constructed.console.render hankaku x y = _
    rw [constructed_shows.render x hy, hempty]
    rfl

/-- The first cursor is drawn. -/
theorem redraws_first_cursor (self : Desktop) :
    Redraws (picture hankaku config) .cursor (drawMouseCursor self.mouseCursor.position)
      self self where
  shown := by
    intro p hp canvas
    rw [picture, paint_eq_of_covers hp]
  kept := fun _ _ _ => rfl

/-- `KernelMain` draws the greeting and then the cursor. -/
theorem boot_eq : boot hankaku = (constructed.call hankaku (.putString welcome)).map
    (fun result => (result.1 ++ drawMouseCursor ⟨300, 200⟩, result.2)) := by
  rw [call, boot, constructed]
  cases (Console.construct kDesktopFGColor kDesktopBGColor).putString hankaku welcome with
  | error e => rfl
  | ok result => rfl

/-- A run layer by layer: the greeting on the desktop, the first cursor, and the calls. -/
def runLayers (hankaku : HankakuBin) (cs : List DrawCall) :
    Except Fault (List (Layer × List Write) × Desktop) :=
  (constructed.call hankaku (.putString welcome)).bind fun (greeting, self) =>
  (self.layers hankaku cs).map fun (drawn, self) =>
    ((.desktop, greeting) :: (.cursor, drawMouseCursor ⟨300, 200⟩) :: drawn, self)

variable (hankaku config) in
/-- **A run draws layer by layer**, and leaves a console and a cursor that have what was passed to
them. -/
theorem run_redrawn (cs : List DrawCall) :
    ∃ drawn self, runLayers hankaku cs = .ok (drawn, self) ∧
      run hankaku cs = .ok (strokesOf drawn, self) ∧
      Console.Shows (windowAfter TextWindow.empty (.putString welcome :: cs)) self.console ∧
      self.mouseCursor.position = cursorAfter ⟨300, 200⟩ cs ∧
      Redrawn (picture hankaku config) constructed drawn self := by
  obtain ⟨greeting, booted, hcall, hshows, hposition, hredraws⟩ :=
    @call_redraws hankaku config _ (.putString welcome) _ constructed_shows
  obtain ⟨drawn, self, hlayers, hcalls, hshows', hposition', hredrawn⟩ :=
    @layers_redrawn hankaku config _ cs _ hshows
  have hstart : booted.mouseCursor.position = ⟨300, 200⟩ := hposition
  have hcursor := @redraws_first_cursor hankaku config booted
  rw [hstart] at hcursor hposition'
  refine ⟨_, self, ?_, ?_, ?_, hposition', .step hredraws (.step hcursor hredrawn)⟩
  · rw [runLayers, hcall, bind_ok]
    simp only
    rw [hlayers]
    rfl
  · rw [run, boot_eq, hcall]
    simp only [Except.map, bind_ok]
    rw [hcalls]
    simp only [strokesOf, List.flatMap_cons, List.append_assoc]
  · rw [windowAfter_cons]
    exact hshows'

end Desktop

end Mikanos
