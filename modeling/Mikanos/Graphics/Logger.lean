import Mikanos.Graphics.DesktopPicture

/-!
# Messages of the kernel

`printk` and `Log` format a message into a buffer of 1024 bytes on the stack and
pass it to the console.  `Log` does so only if the level of the message is not
above the one set last, so a run draws what the desktop draws for the messages
accepted in it, provided these fit the buffer; the first that does not is
written over its end (`run_refines`).

With that the frame buffer shows, at every pixel, the desktop with the last
lines of the accepted messages or the layer of the cursor, depending on which
was drawn there last (`run_shows`).
-/

namespace Mikanos

open Canvas

/-- `LogLevel`. -/
inductive LogLevel where
  | kError
  | kWarn
  | kInfo
  | kDebug
  deriving DecidableEq, Repr

/-- The number that stands for the level. -/
def LogLevel.value : LogLevel → Nat
  | .kError => 3
  | .kWarn => 4
  | .kInfo => 6
  | .kDebug => 7

/-- `char s[1024]`. -/
def messageSize : Nat := 1024

/-- The message fits the buffer, with the NUL at its end. -/
def CString.FitsBuffer (text : CString) : Prop := text.bytes.length ≤ messageSize

instance (text : CString) : Decidable text.FitsBuffer :=
  inferInstanceAs (Decidable (_ ≤ _))

/-- `vsprintf(s, format, ap)`, where `text` is what the format makes of the arguments. -/
def vsprintf (text : CString) : Except Fault Int :=
  if text.FitsBuffer then .ok text.chars.length else .error .outOfBounds

/-- The variables that drawing depends on: `log_level`, `*console` and `*mouse_cursor`. -/
structure Display where
  logLevel : LogLevel
  desktop : Desktop

/-- A call that draws or decides about it. -/
inductive KernelCall where
  /-- `printk(format, ...)`. -/
  | printk (text : CString)
  /-- `Log(level, format, ...)`. -/
  | log (level : LogLevel) (text : CString)
  /-- `SetLogLevel(level)`. -/
  | setLogLevel (level : LogLevel)
  /-- `MouseObserver(displacement_x, displacement_y)`. -/
  | mouseObserver (displacementX displacementY : BitVec 8)

namespace Display

/-- `SetLogLevel(level)`. -/
def setLogLevel (self : Display) (level : LogLevel) : Display := { self with logLevel := level }

section

variable (hankaku : HankakuBin)

/-- The body that `printk` and `Log` share. -/
def print (self : Display) (text : CString) : Except Fault (Int × List Write × Display) :=
  (vsprintf text).bind fun result =>
  (self.desktop.console.putString hankaku text).map fun (writes, console) =>
    (result, writes, { self with desktop := { self.desktop with console := console } })

/-- `printk(format, ...)`. -/
def printk (self : Display) (text : CString) : Except Fault (Int × List Write × Display) :=
  self.print hankaku text

/-- `Log(level, format, ...)`. -/
def log (self : Display) (level : LogLevel) (text : CString) :
    Except Fault (Int × List Write × Display) :=
  if self.logLevel.value < level.value then .ok (0, [], self)
  else self.print hankaku text

/-- One call. -/
def call (self : Display) : KernelCall → Except Fault (List Write × Display)
  | .printk text => (self.printk hankaku text).map Prod.snd
  | .log level text => (self.log hankaku level text).map Prod.snd
  | .setLogLevel level => .ok ([], self.setLogLevel level)
  | .mouseObserver dx dy =>
      let (writes, desktop) := self.desktop.mouseObserver dx dy
      .ok (writes, { self with desktop := desktop })

/-- One call after the other. -/
def calls (self : Display) : List KernelCall → Except Fault (List Write × Display)
  | [] => .ok ([], self)
  | c :: rest =>
      (self.call hankaku c).bind fun (drawn, self) =>
      (calls self rest).map fun (writes, self) => (drawn ++ writes, self)

end

/-- What the calls draw when the log starts at this level: every `printk`, the messages with a
level up to that of the log at the time, and the cursor. -/
def accepted : LogLevel → List KernelCall → List DrawCall
  | _, [] => []
  | level, .printk text :: rest => .putString text :: accepted level rest
  | level, .log l text :: rest =>
      if level.value < l.value then accepted level rest
      else .putString text :: accepted level rest
  | _, .setLogLevel l :: rest => accepted l rest
  | level, .mouseObserver dx dy :: rest => .mouseObserver dx dy :: accepted level rest

/-- The level of the log after the calls. -/
def levelAfter : LogLevel → List KernelCall → LogLevel
  | level, [] => level
  | level, .printk _ :: rest => levelAfter level rest
  | level, .log _ _ :: rest => levelAfter level rest
  | _, .setLogLevel l :: rest => levelAfter l rest
  | level, .mouseObserver _ _ :: rest => levelAfter level rest

/-- All messages among the calls fit the buffer. -/
def AllFit (cs : List DrawCall) : Prop := ∀ text ∈ Desktop.stringsOf cs, text.FitsBuffer

instance (cs : List DrawCall) : Decidable (AllFit cs) :=
  inferInstanceAs (Decidable (∀ text ∈ _, _))

theorem allFit_putString {text : CString} {cs : List DrawCall} :
    AllFit (.putString text :: cs) ↔ text.FitsBuffer ∧ AllFit cs :=
  List.forall_mem_cons

section

variable (hankaku : HankakuBin) (config : FrameBufferConfig)

/-- `KernelMain` up to the construction of the cursor. -/
def start : Except Fault (List Write × Display) :=
  (vsprintf welcome).bind fun _ =>
  (Desktop.boot hankaku).map fun (drawn, desktop) =>
    (drawDesktop config ++ drawn, (Display.mk .kWarn desktop).setLogLevel .kInfo)

/-- All that is drawn. -/
def run (cs : List KernelCall) : Except Fault (List Write × Display) :=
  (start hankaku config).bind fun (drawn, self) =>
  (self.calls hankaku cs).map fun (writes, self) => (drawn ++ writes, self)

end

variable {hankaku : HankakuBin} {w : TextWindow (BitVec 8)}

/-- What the calls of the desktop leave of the kernel's variables. -/
def afterCalls (level : LogLevel) (result : List Write × Desktop) : List Write × Display :=
  (result.1, ⟨level, result.2⟩)

/-- A message that fits is a call of the desktop. -/
theorem print_eq (self : Display) {text : CString} (hfit : text.FitsBuffer) :
    (self.print hankaku text).map Prod.snd =
      (self.desktop.call hankaku (.putString text)).map (afterCalls self.logLevel) := by
  rw [print, vsprintf, if_pos hfit, bind_ok, Desktop.call]
  cases self.desktop.console.putString hankaku text with
  | error e => rfl
  | ok result => rfl

/-- One call that draws, and then the rest: if both are calls of the desktop, so is the
sequence, and the threshold is the one that the first call leaves. -/
theorem calls_cons {self : Display} {c : KernelCall} {d : DrawCall} {rest : List KernelCall}
    {ds : List DrawCall} {level : LogLevel}
    (hcall : self.call hankaku c =
      (self.desktop.call hankaku d).map (afterCalls self.logLevel))
    (hrest : ∀ desktop, (Display.mk self.logLevel desktop).calls hankaku rest =
      (desktop.calls hankaku ds).map (afterCalls level)) :
    self.calls hankaku (c :: rest) =
      (self.desktop.calls hankaku (d :: ds)).map (afterCalls level) := by
  rw [calls, hcall, Desktop.calls]
  cases self.desktop.call hankaku d with
  | error e => rfl
  | ok result =>
      simp only [Except.map, bind_ok, afterCalls]
      rw [hrest]
      cases result.2.calls hankaku ds with
      | error e => rfl
      | ok result' => rfl

/-- **The messages that pass are drawn, and nothing else of the log**: as long as these messages fit
the buffer, the calls are the ones of the desktop for them and for the cursor. -/
theorem calls_eq (cs : List KernelCall) (self : Display)
    (hfit : AllFit (accepted self.logLevel cs)) :
    self.calls hankaku cs =
      (self.desktop.calls hankaku (accepted self.logLevel cs)).map
        (afterCalls (levelAfter self.logLevel cs)) := by
  induction cs generalizing self with
  | nil => rfl
  | cons c rest ih =>
      cases c with
      | printk text =>
          obtain ⟨htext, hrest⟩ := allFit_putString.mp hfit
          exact calls_cons (print_eq self htext) fun desktop => ih ⟨self.logLevel, desktop⟩ hrest
      | log l text =>
          rw [accepted] at hfit ⊢
          by_cases habove : self.logLevel.value < l.value
          · rw [if_pos habove] at hfit ⊢
            have hskip : self.call hankaku (.log l text) = .ok ([], self) := by
              rw [call, log, if_pos habove]
              rfl
            rw [calls, hskip, bind_ok]
            simp only [List.nil_append]
            rw [ih self hfit, levelAfter]
            cases self.desktop.calls hankaku (accepted self.logLevel rest) with
            | error e => rfl
            | ok result => rfl
          · rw [if_neg habove] at hfit ⊢
            obtain ⟨htext, hrest⟩ := allFit_putString.mp hfit
            refine calls_cons ?_ fun desktop => ih ⟨self.logLevel, desktop⟩ hrest
            rw [call, log, if_neg habove]
            exact print_eq self htext
      | setLogLevel l =>
          rw [calls, call, bind_ok]
          simp only [List.nil_append]
          rw [ih (self.setLogLevel l) hfit]
          simp only [setLogLevel, accepted, levelAfter]
          cases self.desktop.calls hankaku (accepted l rest) with
          | error e => rfl
          | ok result => rfl
      | mouseObserver dx dy =>
          exact calls_cons rfl fun desktop => ih ⟨self.logLevel, desktop⟩ hfit

/-- A message that does not fit is written over the end of the buffer. -/
theorem print_error (self : Display) {text : CString} (hlong : ¬ text.FitsBuffer) :
    self.print hankaku text = .error .outOfBounds := by
  rw [print, vsprintf, if_neg hlong]
  rfl

/-- After a message that was drawn. -/
theorem print_shows (self : Display) {text : CString} (hfit : text.FitsBuffer)
    (hshows : Console.Shows w self.desktop.console) :
    ∃ drawn desktop, (self.print hankaku text).map Prod.snd =
        .ok (drawn, ⟨self.logLevel, desktop⟩) ∧
      Console.Shows (Desktop.windowAfter w [.putString text]) desktop.console := by
  obtain ⟨drawn, desktop, hcall, hshows', -⟩ :=
    @Desktop.call_redraws hankaku Desktop.smallScreen _ (.putString text) _ hshows
  refine ⟨drawn, desktop, ?_, hshows'⟩
  rw [print_eq self hfit, hcall]
  rfl

/-- **A message that passes and does not fit**: `vsprintf` writes behind the 1024 bytes, so the
calls do not come to an end, whatever is logged before and after it. -/
theorem calls_error (cs : List KernelCall) (self : Display)
    (hshows : Console.Shows w self.desktop.console) (hlong : ¬ AllFit (accepted self.logLevel cs)) :
    self.calls hankaku cs = .error .outOfBounds := by
  induction cs generalizing w self with
  | nil => exact absurd (fun _ h => nomatch h) hlong
  | cons c rest ih =>
      -- a message passed on: it is the one too long, or one behind it is
      have hprint : ∀ text, self.call hankaku c = (self.print hankaku text).map Prod.snd →
          ¬ AllFit (.putString text :: accepted self.logLevel rest) →
          self.calls hankaku (c :: rest) = .error .outOfBounds := by
        intro text hcall hlong
        rw [calls, hcall]
        by_cases hfit : text.FitsBuffer
        · obtain ⟨drawn, desktop, hdrawn, hshows'⟩ := @print_shows hankaku _ self _ hfit hshows
          rw [hdrawn, bind_ok]
          simp only
          rw [ih ⟨self.logLevel, desktop⟩ hshows' fun h => hlong (allFit_putString.mpr ⟨hfit, h⟩)]
          rfl
        · rw [print_error self hfit]
          rfl
      cases c with
      | printk text => exact hprint text rfl hlong
      | log l text =>
          rw [accepted] at hlong
          by_cases habove : self.logLevel.value < l.value
          · rw [if_pos habove] at hlong
            have hskip : self.call hankaku (.log l text) = .ok ([], self) := by
              rw [call, log, if_pos habove]
              rfl
            rw [calls, hskip, bind_ok]
            simp only
            rw [ih self hshows hlong]
            rfl
          · rw [if_neg habove] at hlong
            refine hprint text ?_ hlong
            rw [call, log, if_neg habove]
      | setLogLevel l =>
          rw [calls, call, bind_ok]
          simp only
          rw [ih (self.setLogLevel l) hshows hlong]
          rfl
      | mouseObserver dx dy =>
          rw [calls, call, bind_ok]
          simp only
          rw [ih ⟨self.logLevel, (self.desktop.mouseObserver dx dy).2⟩ hshows hlong]
          rfl

theorem welcome_fitsBuffer : welcome.FitsBuffer := by
  decide +kernel

variable (hankaku) in
/-- **The kernel's messages.**  A run draws the desktop and then what `PutString` and
`MouseObserver` draw for the messages that pass the log, in their order, as long as all of these
fit the buffer; otherwise the first that does not is written over its end. -/
theorem run_refines (config : FrameBufferConfig) (cs : List KernelCall) :
    run hankaku config cs =
      if AllFit (accepted .kInfo cs) then
        (Desktop.run hankaku (accepted .kInfo cs)).map fun (writes, desktop) =>
          (drawDesktop config ++ writes, ⟨levelAfter .kInfo cs, desktop⟩)
      else .error .outOfBounds := by
  obtain ⟨drawn, booted, hboot, hshows, -⟩ :=
    @Desktop.call_redraws hankaku config _ (.putString welcome) _ Desktop.constructed_shows
  have hstart : Desktop.boot hankaku = .ok (drawn ++ drawMouseCursor ⟨300, 200⟩, booted) := by
    rw [Desktop.boot_eq, hboot]
    rfl
  rw [run, start, vsprintf, if_pos welcome_fitsBuffer, bind_ok, hstart, Desktop.run, hstart]
  simp only [Except.map, bind_ok, setLogLevel]
  by_cases hfit : AllFit (accepted .kInfo cs)
  · rw [if_pos hfit, calls_eq cs ⟨.kInfo, booted⟩ hfit]
    cases booted.calls hankaku (accepted .kInfo cs) with
    | error e => rfl
    | ok result =>
        simp only [Except.map, afterCalls, List.append_assoc]
  · rw [if_neg hfit, calls_error cs ⟨.kInfo, booted⟩ hshows hfit]

/-- The last lines of the text. -/
theorem rows_of_shows {cs : List DrawCall} {console : Console}
    (hshows : Console.Shows (Desktop.windowAfter TextWindow.empty cs) console) (i : Nat)
    (hi : i < Console.kRows) : console.buffer[i] = Console.rowOf
      ((((Console.linesOf (Desktop.stringsOf cs)).rtake Console.kRows)[i]?).getD []) := by
  have hwindow : Desktop.windowAfter TextWindow.empty cs =
      TextWindow.ofText newlineChar Console.room
        ((Desktop.stringsOf cs).flatMap CString.chars) := rfl
  rw [hwindow] at hshows
  rw [hshows.buffer i hi, TextWindow.line, TextWindow.ofText_lines]
  rfl

variable (hankaku) in
/-- **What the screen shows.**  After any run with the cursor on the screen, each pixel shows what
drew there last: the desktop, with the text that the console has in the end, or the cursor where it
is in the end, with the background colour left where it was before.  The text is the last 25 lines
of the greeting and the messages that passed the log.  Only where the console overlaps the task bar,
on screens of less than 450 lines, its area is not blank at first. -/
theorem run_shows {config : FrameBufferConfig} (hfits : config.Fits) (cs : List KernelCall)
    (hfit : AllFit (accepted .kInfo cs))
    (hcursor : ∀ before, before <+: accepted .kInfo cs →
      config.CursorFits (cursorAfter ⟨300, 200⟩ before)) :
    ∃ writes self drawn, run hankaku config cs = .ok (writes, self) ∧
      Desktop.runLayers hankaku (accepted .kInfo cs) = .ok (drawn, self.desktop) ∧
      (∀ memory,
        (∀ p, config.OnScreen p → (Console.InArea p → wallpaper config p = kDesktopBGColor) →
          config.pixelOf (config.store writes memory) p =
            self.desktop.picture hankaku config (top p .desktop drawn) p) ∧
        ∀ a, ¬ config.Contains a → config.store writes memory a = memory a) ∧
      (∀ (i : Nat) (hi : i < Console.kRows), self.desktop.console.buffer[i] = Console.rowOf
        ((((Console.linesOf (welcome :: Desktop.stringsOf (accepted .kInfo cs))).rtake
          Console.kRows)[i]?).getD [])) ∧
      self.desktop.mouseCursor.position = cursorAfter ⟨300, 200⟩ (accepted .kInfo cs) := by
  obtain ⟨drawn, desktop, hlayers, hrun, hshows, hposition, hredrawn⟩ :=
    Desktop.run_redrawn hankaku config (accepted .kInfo cs)
  obtain ⟨writes, desktop', hrun', honScreen⟩ :=
    @Desktop.run_onScreen hankaku config hfits (accepted .kInfo cs)
  rw [hrun] at hrun'
  obtain ⟨rfl, rfl⟩ := Prod.mk.inj (Except.ok.inj hrun')
  have hrows := rows_of_shows hshows
  rw [Desktop.stringsOf] at hrows
  have hscreen : ∀ w ∈ drawDesktop config ++ strokesOf drawn, config.OnScreen w.point := by
    intro w hw
    rcases List.mem_append.mp hw with hw | hw
    · exact Desktop.drawDesktop_onScreen hfits w hw
    · exact honScreen.mpr hcursor _ ⟨w, hw, rfl⟩
  refine ⟨drawDesktop config ++ strokesOf drawn, ⟨levelAfter .kInfo cs, desktop⟩, drawn, ?_,
    hlayers,
    fun memory => ⟨fun p hp hblank => ?_, fun a ha => ?_⟩, hrows, hposition⟩
  · rw [run_refines, if_pos hfit, hrun]
    rfl
  · rw [FrameBufferConfig.store_refines hfits.addressable hscreen hp, paint_append]
    apply paint_top hredrawn
    rw [Desktop.paint_drawDesktop hfits hp, Desktop.picture_constructed hblank]
  · exact FrameBufferConfig.store_frame hfits.addressable hscreen ha memory

/-- A screen with room for the console above the task bar. -/
def tallScreen : FrameBufferConfig := { Desktop.smallScreen with verticalResolution := 450 }

theorem tallScreen_fits : tallScreen.Fits where
  width := by decide
  height := by decide
  line := by decide
  reach := by decide

/-- A message that passes, one that does not, and a move of the cursor: the text of the first is
on the screen, the second leaves nothing, and the cursor is drawn over both. -/
theorem run_shows_sample :
    ∃ (writes : List Write) (self : Display) (drawn : List (Layer × List Write)),
      run (Vector.replicate hankakuBinSize 0xff) tallScreen
        [.log .kInfo welcome, .log .kDebug welcome, .mouseObserver 127 127] = .ok (writes, self) ∧
      self.desktop.mouseCursor.position = ⟨427, 327⟩ ∧
      ∀ p, tallScreen.OnScreen p →
        tallScreen.pixelOf (tallScreen.store writes fun _ => 0) p =
          self.desktop.picture (Vector.replicate hankakuBinSize 0xff) tallScreen
            (top p .desktop drawn) p := by
  obtain ⟨writes, self, drawn, hrun, -, hpicture, -, hposition⟩ :=
    run_shows (Vector.replicate hankakuBinSize 0xff) tallScreen_fits
      [.log .kInfo welcome, .log .kDebug welcome, .mouseObserver 127 127]
      (by decide +kernel) (by
        change ∀ before, before <+: [DrawCall.putString welcome, .mouseObserver 127 127] → _
        rw [Desktop.forall_prefix_cons, Desktop.forall_prefix_cons]
        refine ⟨?_, ?_, ?_⟩
        · exact ⟨⟨by decide, by decide⟩, by decide, by decide⟩
        · exact ⟨⟨by decide, by decide⟩, by decide, by decide⟩
        · intro before hb
          rw [List.prefix_nil.mp hb]
          exact ⟨⟨by decide, by decide⟩, by decide, by decide⟩)
  have hblank := (Desktop.blank_iff tallScreen_fits).mpr (by decide)
  exact ⟨writes, self, drawn, hrun, hposition,
    fun p hp => (hpicture fun _ => 0).1 p hp (hblank p)⟩

end Display

end Mikanos
