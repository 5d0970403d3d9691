import Mikanos.Lib.Dialogue
import Mikanos.Graphics.FrameBuffer
import Mikanos.Loader.EntryPoint

/-!
# The boot loader and the firmware

`UefiMain` is a dialogue with the firmware.  Every call hands over the memory as the loader has
left it and gets it back as the firmware leaves it, and the answer has the values the call stores
through its pointers.  `Halt` and `while (1)` end the program, as does a pointer that was never
set.

`bootProtocol` is what the loader keeps to whatever the firmware answers
(`uefiMain_keepsProtocol`): no boot service after they have ended, the right key to end them, and
the kernel entered last.  What it does about a failure depends on the call.  Where it looks at the
status it reports it and halts.  Where it does not, a pointer is not set, and the loader gets as
far as the next use of that pointer.  The first failure to leave the boot services is the one it
recovers from.
-/

namespace Mikanos.Loader

open Dialogue

/-- `EFI_STATUS`. -/
abbrev EfiStatus := BitVec 64

/-- `EFI_ERROR(status)`. -/
def efiError (status : EfiStatus) : Bool := status.getLsbD 63

/-- `EFI_SUCCESS`. -/
def EFI_SUCCESS : EfiStatus := 0

/-- `EFI_BUFFER_TOO_SMALL`. -/
def EFI_BUFFER_TOO_SMALL : EfiStatus := 0x8000000000000005

/-- `struct MemoryMap`. -/
structure MemoryMap where
  bufferSize : BitVec 64
  buffer : Addr
  mapSize : BitVec 64
  mapKey : BitVec 64
  descriptorSize : BitVec 64
  descriptorVersion : BitVec 32
  deriving DecidableEq, Repr

/-- `EFI_GRAPHICS_PIXEL_FORMAT`. -/
abbrev GraphicsPixelFormat := BitVec 32

/-- `PixelRedGreenBlueReserved8BitPerColor`. -/
def pixelRedGreenBlue : GraphicsPixelFormat := 0

/-- `PixelBlueGreenRedReserved8BitPerColor`. -/
def pixelBlueGreenRed : GraphicsPixelFormat := 1

/-- `*gop->Mode` and `*gop->Mode->Info`. -/
structure GraphicsMode where
  frameBufferBase : Addr
  frameBufferSize : BitVec 64
  horizontalResolution : BitVec 32
  verticalResolution : BitVec 32
  pixelFormat : GraphicsPixelFormat
  pixelsPerScanLine : BitVec 32
  deriving DecidableEq, Repr

/-- What is printed for a directive of a format string. -/
inductive PrintArg where
  | status (value : EfiStatus)
  | number (value : BitVec 64)
  | text (value : String)
  deriving DecidableEq, Repr

/-- A call of the firmware or its libraries, or of the kernel. -/
inductive Call where
  | print (format : String) (args : List PrintArg)
  | asciiPrint (format : List (BitVec 8)) (args : List PrintArg)
  | getMemoryMap (bufferSize : BitVec 64) (buffer : Addr)
  | openLoadedImage (imageHandle : Addr)
  | openFileSystem (deviceHandle : Addr)
  | openVolume (fs : Addr)
  | locateHandleBuffer
  | openGraphicsOutput (handle : Addr)
  | freeHandleBuffer
  | openFile (root : Addr) (name : String) (mode : BitVec 64)
  | writeFile (file : Addr) (data : List (BitVec 8))
  | closeFile (file : Addr)
  | getFileInfo (file : Addr) (size : BitVec 64)
  | allocatePool (size : BitVec 64)
  | readFile (file : Addr) (size : BitVec 64) (buffer : Addr)
  | allocatePages (address : Addr) (pages : BitVec 64)
  | freePool (buffer : Addr)
  | exitBootServices (imageHandle : Addr) (mapKey : BitVec 64)
  | enterKernel (entryAddr : Addr) (config : FrameBufferConfig)
  deriving DecidableEq, Repr

/-- What a call answers.  Where the loader does not look at the status, `none` says that the
call failed and its variable was not set. -/
def Call.Answer : Call → Type
  | .print _ _ => Unit
  | .asciiPrint _ _ => BitVec 64
  | .getMemoryMap _ _ => EfiStatus × MemoryMap
  | .openLoadedImage _ => Option Addr
  | .openFileSystem _ => Option Addr
  | .openVolume _ => Option Addr
  | .locateHandleBuffer => Option Addr
  | .openGraphicsOutput _ => Option GraphicsMode
  | .freeHandleBuffer => Unit
  | .openFile _ _ _ => EfiStatus × Addr
  | .writeFile _ _ => Unit
  | .closeFile _ => EfiStatus
  | .getFileInfo _ _ => EfiStatus × BitVec 64
  | .allocatePool _ => EfiStatus × Addr
  | .readFile _ _ _ => EfiStatus
  | .allocatePages _ _ => EfiStatus
  | .freePool _ => EfiStatus
  | .exitBootServices _ _ => EfiStatus
  | .enterKernel _ _ => Unit

/-- A call, with the memory it is made in. -/
structure Question where
  call : Call
  memory : ByteMemory

/-- The answer, with the memory after the call. -/
def Question.Reply (q : Question) : Type := q.call.Answer × ByteMemory

/-- Why the loader goes no further. -/
inductive Stop where
  /-- `Halt()` or `while (1);`. -/
  | halted
  /-- A pointer that was not set is dereferenced, or a buffer is read past its end. -/
  | undefined
  | endlessLoop
  deriving DecidableEq, Repr

/-- A part of the loader: it starts with the memory and, unless it stops, ends with one. -/
def Boot (R : Type) : Type := ByteMemory → Dialogue Question.Reply (Except Stop (R × ByteMemory))

instance : Monad Boot where
  pure r := fun memory => .done (.ok (r, memory))
  bind p f := fun memory => (p memory).bindOk fun result => f result.1 result.2

namespace Boot

/-- A call. -/
def call (c : Call) : Boot c.Answer :=
  fun memory => .ask (A := Question.Reply) ⟨c, memory⟩ fun reply => .done (.ok reply)

/-- The loader goes no further. -/
def stop {R : Type} (why : Stop) : Boot R := fun _ => .done (.error why)

/-- The memory. -/
def memory : Boot ByteMemory := fun memory => .done (.ok (memory, memory))

/-- Write to the memory. -/
def setMemory (memory : ByteMemory) : Boot Unit := fun _ => .done (.ok ((), memory))

/-- `Print(format, …)`. -/
def print (format : String) (args : List PrintArg) : Boot Unit := call (.print format args)

/-- `Halt()`. -/
def halt {R : Type} : Boot R := stop .halted

/-- `if (EFI_ERROR(status)) { Print(format, status); Halt(); }`. -/
def check (status : EfiStatus) (format : String) : Boot Unit :=
  if efiError status then do
    print format [.status status]
    halt
  else pure ()

/-- A pointer that is dereferenced. -/
def deref {R : Type} : Option R → Boot R
  | none => stop .undefined
  | some r => pure r

end Boot

open Boot

/-! ## The functions of the loader -/

/-- `GetMemoryMap(map)`. -/
def getMemoryMap (map : MemoryMap) : Boot (EfiStatus × MemoryMap) :=
  if map.buffer = nullptr then pure (EFI_BUFFER_TOO_SMALL, map)
  else do
    let (status, stored) ← call (.getMemoryMap map.bufferSize map.buffer)
    pure (status, { map with
      mapSize := stored.mapSize
      mapKey := stored.mapKey
      descriptorSize := stored.descriptorSize
      descriptorVersion := stored.descriptorVersion })

/-- The names of `GetMemoryTypeUnicode`, by type. -/
def memoryTypeNames : List String := [
  "EfiReservedMemoryType", "EfiLoaderCode", "EfiLoaderData", "EfiBootServicesCode",
  "EfiBootServicesData", "EfiRuntimeServicesCode", "EfiRuntimeServicesData",
  "EfiConventionalMemory", "EfiUnusableMemory", "EfiACPIReclaimMemory", "EfiACPIMemoryNVS",
  "EfiMemoryMappedIO", "EfiMemoryMappedIOPortSpace", "EfiPalCode", "EfiPersistentMemory",
  "EfiMaxMemoryType"]

/-- `GetMemoryTypeUnicode(type)`. -/
def getMemoryTypeUnicode (type : BitVec 32) : String :=
  (memoryTypeNames[type.toNat]?).getD "InvalidMemoryType"

/-- The header line of `SaveMemoryMap`. -/
def memmapHeader : String := "Ineex, Type, Type(name), PhysicalStart, NumberOfPages, Attribute\n"

/-- The bytes of an ASCII string. -/
def asciiBytes (s : String) : List (BitVec 8) := s.toList.map fun c => BitVec.ofNat 8 c.toNat

/-- The arguments of `AsciiPrint` behind `buf`: its size, the format string that is meant, and
what is read from descriptor `i` at `iter`. -/
def descriptorArgs (memory : ByteMemory) (i : Nat) (iter : Addr) : List PrintArg :=
  let type := memory.load 4 iter
  [.number 256, .text "%u, %x, %-ls, %08lx, %lx, %lx\n", .number (BitVec.ofNat 64 i),
    .number (type.setWidth 64), .text (getMemoryTypeUnicode type),
    .number (memory.load 8 (iter + 8)), .number (memory.load 8 (iter + 24)),
    .number ((memory.load 8 (iter + 32) : BitVec 64) &&& 0xfffff)]

/-- The loop of `SaveMemoryMap` from descriptor `i` at `iter` on.  `buf` is what the array on the
stack holds: nothing is written to it. -/
def saveDescriptors (buf : Vector (BitVec 8) 256) (map : MemoryMap) (file : Addr) :
    Nat → Nat → Addr → Boot Unit
  | 0, _, _ => stop .endlessLoop
  | rounds + 1, i, iter =>
      if iter < map.buffer + map.mapSize then do
        let here ← memory
        if 0 ∉ buf.toList then stop .undefined
        else do
          let len ← call (.asciiPrint buf.toList (descriptorArgs here i iter))
          if 256 < len.toNat then stop .undefined
          else do
            call (.writeFile file (buf.toList.take len.toNat))
            saveDescriptors buf map file rounds (i + 1) (iter + map.descriptorSize)
      else pure ()

/-- `SaveMemoryMap(map, file)`.  After `2 ^ 64` rounds `iter` has come back to where it was. -/
def saveMemoryMap (buf : Vector (BitVec 8) 256) (map : MemoryMap) (file : Addr) :
    Boot EfiStatus := do
  call (.writeFile file (asciiBytes memmapHeader))
  print "map->buffer = %08lx, map->map_size = %08lx\n" [.number map.buffer, .number map.mapSize]
  saveDescriptors buf map file (2 ^ 64) 0 map.buffer
  pure EFI_SUCCESS

/-- `OpenRootDir(image_handle, &root)`. -/
def openRootDir (imageHandle : Addr) : Boot (EfiStatus × Option Addr) := do
  let deviceHandle ← deref (← call (.openLoadedImage imageHandle))
  let fs ← deref (← call (.openFileSystem deviceHandle))
  let root ← call (.openVolume fs)
  pure (EFI_SUCCESS, root)

/-- `OpenGOP(image_handle, &gop)`. -/
def openGOP : Boot (EfiStatus × Option GraphicsMode) := do
  let handle ← deref (← call .locateHandleBuffer)
  let gop ← call (.openGraphicsOutput handle)
  call .freeHandleBuffer
  pure (EFI_SUCCESS, gop)

/-- The names of `GetPixelFormatUnicode`, by format. -/
def pixelFormatNames : List String := [
  "PIxelRedGreenBlueReserved8BItPerColor", "PixelBlueGreenRedReserved8BitPerColor",
  "PixelBitMask", "PIxelBltOnly", "PixelFormatMax"]

/-- `GetPixelFormatUnicode(fmt)`. -/
def getPixelFormatUnicode (fmt : GraphicsPixelFormat) : String :=
  (pixelFormatNames[fmt.toNat]?).getD "InvalidPixelFormat"

/-- The `config` of `UefiMain` for a pixel format of the kernel. -/
def configOf (mode : GraphicsMode) (pixelFormat : PixelFormat) : FrameBufferConfig where
  frameBuffer := mode.frameBufferBase
  pixelsPerScanLine := mode.pixelsPerScanLine
  horizontalResolution := mode.horizontalResolution
  verticalResolution := mode.verticalResolution
  pixelFormat := pixelFormat

/-- The `switch` of `UefiMain` over the pixel format; `none` in its default case. -/
def kernelPixelFormat (fmt : GraphicsPixelFormat) : Option PixelFormat :=
  if fmt = pixelRedGreenBlue then some .kPixelRGBResv8BitPerColor
  else if fmt = pixelBlueGreenRed then some .kPixelBGRResv8BitPerColor
  else none

/-- `UefiMain` up to the memory map in a file: the memory map and the root directory. -/
def writeMemmap (imageHandle memmapBuf : Addr) (buf : Vector (BitVec 8) 256) :
    Boot (MemoryMap × Addr) := do
  print "Hello, Mikan World!\n" []
  let (status, memmap) ← getMemoryMap ⟨4096 * 4, memmapBuf, 0, 0, 0, 0⟩
  check status "failed to get memory map %r\n"
  let (status, root) ← openRootDir imageHandle
  check status "Failed to open root directory: %r\n"
  let rootDir ← deref root
  let (status, memmapFile) ← call (.openFile rootDir "\\memmap" 0x8000000000000003)
  check status "failed to open file '\\memmap': %r\n"
  let status ← saveMemoryMap buf memmap memmapFile
  check status "failed to save memory map: %r\n"
  let status ← call (.closeFile memmapFile)
  check status "failed to close memory map: %r\n"
  pure (memmap, rootDir)

/-- `UefiMain` from the graphics output protocol to the kernel file in a buffer. -/
def readKernel (rootDir : Addr) : Boot (GraphicsMode × Addr) := do
  let (status, gop) ← openGOP
  check status "failed to open GOP: %r\n"
  let mode ← deref gop
  print "Resolution: %ux%u, Pixel Format: %s, %u pixels/line\n"
    [.number (mode.horizontalResolution.setWidth 64), .number (mode.verticalResolution.setWidth 64),
      .text (getPixelFormatUnicode mode.pixelFormat),
      .number (mode.pixelsPerScanLine.setWidth 64)]
  print "Frame Buffer: 0x%0lx - 0x%0lx, Size: %lu bytes\n"
    [.number mode.frameBufferBase, .number (mode.frameBufferBase + mode.frameBufferSize),
      .number mode.frameBufferSize]
  let (status, kernelFile) ← call (.openFile rootDir "\\kernel.elf" 0x0000000000000001)
  check status "failed to open file '\\kernel.elf: %r\n"
  -- sizeof(EFI_FILE_INFO) + sizeof(CHAR16) * 12
  let (status, kernelFileSize) ← call (.getFileInfo kernelFile 112)
  check status "failed to get file information: %r\n"
  let (status, kernelBuffer) ← call (.allocatePool kernelFileSize)
  check status "failed to allocate pool: %r\n"
  let status ← call (.readFile kernelFile kernelFileSize kernelBuffer)
  check status "error: %r"
  pure (mode, kernelBuffer)

/-- `UefiMain` from `CalcLoadAddressRange` to `FreePool`: `kernel_first_addr`. -/
def loadSegments (u : Uefi) (kernelBuffer : Addr) : Boot Addr := do
  let file ← memory
  let range := calcLoadAddressRange file kernelBuffer
  let status ← call (.allocatePages range.1 (numPagesOf range))
  check status "failed to allocate pages: %r\n"
  let here ← memory
  setMemory (copyLoadSegments u kernelBuffer here).2
  print "Kernel: 0x%0lx - 0x%0lx\n" [.number range.1, .number range.2]
  let status ← call (.freePool kernelBuffer)
  check status "failed to free pool: %r\n"
  pure range.1

/-- The second attempt of `UefiMain` to leave the boot services, with a new map key. -/
def retryExit (imageHandle : Addr) (memmap : MemoryMap) : Boot Unit := do
  let (status, memmap) ← getMemoryMap memmap
  (if efiError status then print "failed to get memory map: %r\n" [.status status] else pure ())
  let status ← call (.exitBootServices imageHandle memmap.mapKey)
  check status "Could not exit boot service%r\n"

/-- `UefiMain` leaves the boot services. -/
def leaveBootServices (imageHandle : Addr) (memmap : MemoryMap) : Boot Unit := do
  let status ← call (.exitBootServices imageHandle memmap.mapKey)
  if efiError status then retryExit imageHandle memmap else pure ()

/-- The end of `UefiMain`: the kernel. -/
def startKernel (mode : GraphicsMode) (kernelFirstAddr : Addr) : Boot Unit := do
  let here ← memory
  let entryAddr := here.load 8 (kernelFirstAddr + 24)
  match kernelPixelFormat mode.pixelFormat with
  | none => do
      print "Unimplemented pixel format: %d\n" [.number (mode.pixelFormat.setWidth 64)]
      halt
  | some pixelFormat => do
      call (.enterKernel entryAddr (configOf mode pixelFormat))
      print "All done\n" []
      halt

/-- `UefiMain(image_handle, system_table)`. -/
def uefiMain (u : Uefi) (imageHandle memmapBuf : Addr) (buf : Vector (BitVec 8) 256) :
    Boot Unit := do
  let (memmap, rootDir) ← writeMemmap imageHandle memmapBuf buf
  let (mode, kernelBuffer) ← readKernel rootDir
  let kernelFirstAddr ← loadSegments u kernelBuffer
  leaveBootServices imageHandle memmap
  startKernel mode kernelFirstAddr

/-! ## What the loader keeps to -/

namespace Boot

variable {S R R' : Type} {c : Protocol Question.Reply S} {post : R → ByteMemory → S → Prop}
  {m : ByteMemory} {s : S}

/-- The part of the loader keeps to the protocol; `post` is about what it ends with, unless it
stops. -/
def Keeps (c : Protocol Question.Reply S) (post : R → ByteMemory → S → Prop) (p : Boot R)
    (m : ByteMemory) (s : S) : Prop :=
  c.Keeps (fun result s => ∀ r m, result = .ok (r, m) → post r m s) (p m) s

/-- The rule for a result: it satisfies the postcondition where it is returned. -/
theorem keeps_pure {r : R} (h : post r m s) : Keeps c post (pure r) m s := by
  intro r' m' heq
  cases heq
  exact h

/-- A loader that stops does nothing any more, so there is nothing to show. -/
theorem keeps_stop (why : Stop) : Keeps c post (stop why) m s :=
  fun _ _ heq => nomatch heq

/-- The rule for two programs in a row: the first establishes what the second needs. -/
theorem keeps_bind {p : Boot R} {f : R → Boot R'} {post : R' → ByteMemory → S → Prop}
    (h : Keeps c (fun r m s => Keeps c post (f r) m s) p m s) : Keeps c post (p >>= f) m s := by
  refine Protocol.keeps_bind (Protocol.Keeps.mono h fun result s hresult => ?_)
  cases result with
  | error why => exact fun _ _ heq => nomatch heq
  | ok result => exact hresult result.1 result.2 rfl

/-- **The rule for a call**: it is allowed in this state, and the postcondition holds for every
answer that the firmware can give. -/
theorem keeps_call {k : Call} {post : k.Answer → ByteMemory → S → Prop}
    (hallowed : c.allowed s ⟨k, m⟩)
    (h : ∀ (answer : k.Answer) m', c.expected s ⟨⟨k, m⟩, (answer, m')⟩ →
      post answer m' (c.next s ⟨⟨k, m⟩, (answer, m')⟩)) : Keeps c post (call k) m s := by
  refine ⟨hallowed, fun reply hexpected r m' heq => ?_⟩
  cases heq
  exact h r m' hexpected

/-- Looking at memory. -/
theorem keeps_memory {post : ByteMemory → ByteMemory → S → Prop} (h : post m m s) :
    Keeps c post memory m s := by
  intro r m' heq
  cases heq
  exact h

/-- Writing to memory. -/
theorem keeps_setMemory {m' : ByteMemory} {post : Unit → ByteMemory → S → Prop}
    (h : post () m' s) : Keeps c post (setMemory m') m s := by
  intro r m' heq
  cases heq
  exact h

/-- The rule for a pointer that the loader follows: if it is null the loader halts, so only the
other case has to be shown. -/
theorem keeps_deref {o : Option R} (h : ∀ r, o = some r → post r m s) :
    Keeps c post (deref o) m s := by
  cases o with
  | none => exact keeps_stop .undefined
  | some r => exact keeps_pure (h r rfl)

/-- A status that is looked at. -/
theorem keeps_check {status : EfiStatus} {format : String} {post : Unit → ByteMemory → S → Prop}
    (hprint : efiError status = true → c.allowed s ⟨.print format [.status status], m⟩)
    (h : efiError status = false → post () m s) : Keeps c post (check status format) m s := by
  unfold check
  by_cases herror : efiError status = true
  · rw [if_pos herror]
    exact keeps_bind (keeps_call (hprint herror) fun _ _ _ => keeps_stop .halted)
  · rw [if_neg herror]
    exact keeps_pure (h (Bool.eq_false_iff.mpr herror))

/-- A weaker postcondition. -/
theorem Keeps.mono {post' : R → ByteMemory → S → Prop} {p : Boot R} (h : Keeps c post p m s)
    (hpost : ∀ r m s, post r m s → post' r m s) : Keeps c post' p m s :=
  Protocol.Keeps.mono h fun _ s hresult r m heq => hpost r m s (hresult r m heq)

end Boot

/-- How far the loader is. -/
structure BootState where
  /-- The boot services have ended. -/
  ended : Bool
  /-- An attempt to leave them has failed. -/
  tried : Bool
  /-- A call has failed whose status the loader halts upon. -/
  failed : Bool
  /-- A call has failed whose status the loader does not look at, and a pointer is not set. -/
  unset : Bool
  /-- The key of the last memory map. -/
  mapKey : BitVec 64
  /-- The mode of the screen. -/
  mode : Option GraphicsMode
  /-- Where the pages of the kernel begin. -/
  first : Option Addr
  /-- The kernel was entered. -/
  entered : Bool

namespace BootState

/-- Before the first call. -/
def start : BootState := ⟨false, false, false, false, 0, none, none, false⟩

/-- A call whose status tells whether the loader goes on. -/
def checked (s : BootState) (status : EfiStatus) : BootState :=
  { s with failed := s.failed || efiError status }

/-- A call that sets a pointer, its status being ignored. -/
def sets {R : Type} (s : BootState) (answer : Option R) : BootState :=
  { s with unset := s.unset || answer.isNone }

/-- The state after a call.  The status of a `GetMemoryMap` after an attempt to leave the boot
services is reported only, and that of `Write` is not looked at. -/
def after (s : BootState) : (c : Call) → c.Answer → BootState
  | .getMemoryMap _ _, (status, stored) =>
      { s with
        mapKey := stored.mapKey
        failed := s.failed || (efiError status && !s.tried) }
  | .openLoadedImage _, deviceHandle => s.sets deviceHandle
  | .openFileSystem _, fs => s.sets fs
  | .openVolume _, root => s.sets root
  | .locateHandleBuffer, handle => s.sets handle
  | .openGraphicsOutput _, mode => { s.sets mode with mode := mode }
  | .openFile _ _ _, (status, _) => s.checked status
  | .closeFile _, status => s.checked status
  | .getFileInfo _ _, (status, _) => s.checked status
  | .allocatePool _, (status, _) => s.checked status
  | .readFile _ _ _, status => s.checked status
  | .allocatePages address _, status => { s.checked status with first := some address }
  | .freePool _, status => s.checked status
  | .exitBootServices _ _, status =>
      if efiError status then { s with tried := true, failed := s.failed || s.tried }
      else { s with ended := true }
  | .enterKernel _ _, _ => { s with entered := true }
  | _, _ => s

/-- The screen has a pixel format that the kernel does not know. -/
def Unsupported (s : BootState) : Prop :=
  ∃ mode, s.mode = some mode ∧ kernelPixelFormat mode.pixelFormat = none

/-- The calls the loader may make. -/
def Allowed (s : BootState) (memory : ByteMemory) : Call → Prop
  -- the console belongs to the boot services too
  | .print _ _ => s.unset = false ∧ (s.ended = true → s.entered = true ∨ s.Unsupported)
  | .getMemoryMap _ _ => s.ended = false ∧ s.failed = false ∧ s.unset = false
  | .exitBootServices _ mapKey =>
      s.ended = false ∧ s.failed = false ∧ s.unset = false ∧ mapKey = s.mapKey
  | .enterKernel entryAddr config =>
      s.ended = true ∧ s.failed = false ∧ s.unset = false ∧ s.entered = false ∧
        (∃ mode format, s.mode = some mode ∧ kernelPixelFormat mode.pixelFormat = some format ∧
          config = configOf mode format) ∧
        ∃ first, s.first = some first ∧ entryAddr = memory.load 8 (first + 24)
  -- the handles are given back although the mode of the screen may be missing
  | .freeHandleBuffer => s.ended = false ∧ s.tried = false ∧ s.failed = false
  | _ => s.ended = false ∧ s.tried = false ∧ s.failed = false ∧ s.unset = false

/-- The loader works with the boot services, and nothing has failed. -/
structure Working (s : BootState) : Prop where
  ended : s.ended = false
  tried : s.tried = false
  failed : s.failed = false
  unset : s.unset = false
  entered : s.entered = false

/-- A loader that works may call every boot service. -/
theorem Working.service {s : BootState} (h : s.Working) :
    s.ended = false ∧ s.tried = false ∧ s.failed = false ∧ s.unset = false :=
  ⟨h.ended, h.tried, h.failed, h.unset⟩

end BootState

/-- What the loader keeps to, whatever it is answered. -/
def bootProtocol : Protocol Question.Reply BootState where
  next := fun s e => s.after e.question.call e.answer.1
  allowed := fun s q => s.Allowed q.memory q.call
  expected := fun _ _ => True

section Phases

variable {s : BootState} {m : ByteMemory}

/-- A part of the loader keeps to `bootProtocol`. -/
abbrev Obeys {R : Type} (post : R → ByteMemory → BootState → Prop) (p : Boot R) (m : ByteMemory)
    (s : BootState) : Prop :=
  Boot.Keeps bootProtocol post p m s

/-- Nothing has happened if the call succeeded. -/
theorem BootState.checked_of_ok {status : EfiStatus} (h : efiError status = false) :
    s.checked status = s := by
  rw [BootState.checked, h, Bool.or_false]

/-- Before the boot services have ended everything can be printed. -/
theorem obeys_print {post : Unit → ByteMemory → BootState → Prop} (hended : s.ended = false)
    (hunset : s.unset = false) {format : String} {args : List PrintArg} (h : ∀ m, post () m s) :
    Obeys post (print format args) m s :=
  keeps_call ⟨hunset, fun hs => absurd hs (by rw [hended]; decide)⟩ fun _ m' _ => h m'

/-- A status that is looked at before the boot services have ended. -/
theorem obeys_check {post : Unit → ByteMemory → BootState → Prop} {status : EfiStatus}
    (hended : s.ended = false) (hunset : s.unset = false) {format : String}
    (h : efiError status = false → post () m s) : Obeys post (check status format) m s :=
  keeps_check (fun _ => ⟨hunset, fun hs => absurd hs (by rw [hended]; decide)⟩) h

/-- A status that says nothing: the function it comes from has ignored those of its calls. -/
theorem obeys_check_success {post : Unit → ByteMemory → BootState → Prop} {status : EfiStatus}
    (hstatus : status = EFI_SUCCESS) {format : String} (h : post () m s) :
    Obeys post (check status format) m s := by
  refine keeps_check (fun herror => ?_) fun _ => h
  rw [hstatus] at herror
  exact absurd herror (by decide)

/-- A status that the call before it has left in the state. -/
theorem obeys_checked {post : Unit → ByteMemory → BootState → Prop} {status : EfiStatus}
    (hs : s.Working) {format : String} (h : post () m s) :
    Obeys post (check status format) m (s.checked status) := by
  refine @obeys_check (s.checked status) _ _ status hs.ended hs.unset _ fun hok => ?_
  rwa [BootState.checked_of_ok hok]

/-- A pointer that the call before it was to set is used. -/
theorem obeys_deref {R : Type} {answer : Option R} {post : R → ByteMemory → BootState → Prop}
    (h : ∀ r, answer = some r → post r m s) : Obeys post (deref answer) m (s.sets answer) := by
  refine keeps_deref fun r hr => ?_
  have hsame : s.sets answer = s := by
    rw [BootState.sets, hr, Option.isNone_some, Bool.or_false]
  rw [hsame]
  exact h r hr

/-- Writing the lines of the memory map, by induction over the lines: each is a call of `Write`,
whose status the loader does not look at. -/
theorem obeys_saveDescriptors (hs : s.Working) (buf : Vector (BitVec 8) 256) (map : MemoryMap)
    (file : Addr) (rounds i : Nat) (iter : Addr) :
    Obeys (fun _ _ s' => s' = s) (saveDescriptors buf map file rounds i iter) m s := by
  induction rounds generalizing i iter m with
  | zero => exact keeps_stop .endlessLoop
  | succ rounds ih =>
      unfold saveDescriptors
      split
      · refine keeps_bind (keeps_memory ?_)
        split
        · exact keeps_stop .undefined
        · refine keeps_bind (keeps_call hs.service fun len m' _ => ?_)
          split
          · exact keeps_stop .undefined
          · exact keeps_bind (keeps_call hs.service fun _ m'' _ => ih _ _)
      · exact keeps_pure rfl

/-- The whole file: its header line first. -/
theorem obeys_saveMemoryMap (hs : s.Working) (buf : Vector (BitVec 8) 256) (map : MemoryMap)
    (file : Addr) :
    Obeys (fun status _ s' => status = EFI_SUCCESS ∧ s' = s) (saveMemoryMap buf map file) m s := by
  refine keeps_bind (keeps_call hs.service fun _ m' _ => ?_)
  refine keeps_bind (obeys_print hs.ended hs.unset fun m'' => ?_)
  refine keeps_bind ((obeys_saveDescriptors hs buf map file _ _ _).mono fun _ m s' hs' => ?_)
  subst hs'
  exact keeps_pure ⟨rfl, rfl⟩

/-- `OpenRootDir` gets as far as the first pointer that is not set; the root directory is
looked at by its caller. -/
theorem obeys_openRootDir (hs : s.Working) (imageHandle : Addr) :
    Obeys (fun result _ s' => result.1 = EFI_SUCCESS ∧ s' = s.sets result.2)
      (openRootDir imageHandle) m s := by
  refine keeps_bind (keeps_call hs.service fun loadedImage m' _ => ?_)
  refine keeps_bind (obeys_deref fun deviceHandle _ => ?_)
  refine keeps_bind (keeps_call hs.service fun fs m'' _ => ?_)
  refine keeps_bind (obeys_deref fun fs _ => ?_)
  exact keeps_bind (keeps_call hs.service fun root m _ => keeps_pure ⟨rfl, rfl⟩)

/-- `OpenGOP` gives the handles back, whether the mode of the screen is there or not. -/
theorem obeys_openGOP (hs : s.Working) :
    Obeys (fun result _ s' => result.1 = EFI_SUCCESS ∧
      s' = BootState.sets { s with mode := result.2 } result.2) openGOP m s := by
  refine keeps_bind (keeps_call hs.service fun handles m' _ => ?_)
  refine keeps_bind (obeys_deref fun handle _ => ?_)
  refine keeps_bind (keeps_call hs.service fun gop m'' _ => ?_)
  exact keeps_bind (keeps_call ⟨hs.ended, hs.tried, hs.failed⟩ fun _ m _ => keeps_pure ⟨rfl, rfl⟩)

/-- `GetMemoryMap` is called while the boot services are there; when it succeeds, its key is the
one to leave with. -/
theorem obeys_getMemoryMap (hended : s.ended = false) (hfailed : s.failed = false)
    (hunset : s.unset = false) (map : MemoryMap) :
    Obeys (fun result _ s' => (result = (EFI_BUFFER_TOO_SMALL, map) ∧ s' = s) ∨
        s' = { s with
          mapKey := result.2.mapKey
          failed := s.failed || (efiError result.1 && !s.tried) })
      (getMemoryMap map) m s := by
  unfold getMemoryMap
  split
  · exact keeps_pure (Or.inl ⟨rfl, rfl⟩)
  · refine keeps_bind (keeps_call ⟨hended, hfailed, hunset⟩ fun answer m' _ => ?_)
    exact keeps_pure (Or.inr rfl)

/-- The first memory map, the root directory and the file with the map: each call is tested
where the loader tests it, and the key of the map is the one that is returned. -/
theorem obeys_writeMemmap (hs : s.Working) (imageHandle memmapBuf : Addr)
    (buf : Vector (BitVec 8) 256) :
    Obeys (fun result _ s' => s'.Working ∧ s'.mapKey = result.1.mapKey)
      (writeMemmap imageHandle memmapBuf buf) m s := by
  refine keeps_bind (obeys_print hs.ended hs.unset fun m => ?_)
  refine keeps_bind ((obeys_getMemoryMap hs.ended hs.failed hs.unset _).mono
    fun result m s₁ hmap => ?_)
  obtain ⟨status, memmap⟩ := result
  have hbefore : s₁.ended = false ∧ s₁.unset = false := by
    rcases hmap with ⟨-, rfl⟩ | rfl
    · exact ⟨hs.ended, hs.unset⟩
    · exact ⟨hs.ended, hs.unset⟩
  refine keeps_bind (obeys_check hbefore.1 hbefore.2 fun hok => ?_)
  have hworking : s₁.Working ∧ s₁.mapKey = memmap.mapKey := by
    rcases hmap with ⟨hsmall, rfl⟩ | rfl
    · obtain ⟨rfl, -⟩ := Prod.mk.inj hsmall
      exact absurd hok (by decide)
    · refine ⟨⟨hs.ended, hs.tried, ?_, hs.unset, hs.entered⟩, rfl⟩
      rw [hs.failed, hok]
      rfl
  obtain ⟨hworking, hkey⟩ := hworking
  refine keeps_bind ((obeys_openRootDir hworking imageHandle).mono fun result m s₂ hroot => ?_)
  obtain ⟨hstatus, rfl⟩ := hroot
  refine keeps_bind (obeys_check_success hstatus
    (keeps_bind (obeys_deref fun root _ => ?_)))
  refine keeps_bind (keeps_call hworking.service fun opened m _ => ?_)
  refine keeps_bind (obeys_checked hworking ?_)
  refine keeps_bind ((obeys_saveMemoryMap hworking buf memmap _).mono fun status m s₃ hsaved => ?_)
  obtain ⟨hstatus, rfl⟩ := hsaved
  refine keeps_bind (obeys_check_success hstatus ?_)
  refine keeps_bind (keeps_call hworking.service fun closed m _ => ?_)
  exact keeps_bind (obeys_checked hworking (keeps_pure ⟨hworking, hkey⟩))

/-- The mode of the screen, and the kernel file in a buffer: the mode that is returned is the
one the firmware has told, and the key of the memory map is the one of before. -/
theorem obeys_readKernel (hs : s.Working) (rootDir : Addr) :
    Obeys (fun result _ s' => s'.Working ∧ s'.mapKey = s.mapKey ∧ s'.mode = some result.1)
      (readKernel rootDir) m s := by
  refine keeps_bind ((obeys_openGOP hs).mono fun result m s₁ hgop => ?_)
  obtain ⟨hstatus, rfl⟩ := hgop
  have hworking : BootState.Working { s with mode := result.2 } :=
    ⟨hs.ended, hs.tried, hs.failed, hs.unset, hs.entered⟩
  refine keeps_bind (obeys_check_success hstatus
    (keeps_bind (obeys_deref fun mode hmode => ?_)))
  refine keeps_bind (obeys_print hworking.ended hworking.unset fun m => ?_)
  refine keeps_bind (obeys_print hworking.ended hworking.unset fun m => ?_)
  refine keeps_bind (keeps_call hworking.service fun opened m _ => ?_)
  refine keeps_bind (obeys_checked hworking ?_)
  refine keeps_bind (keeps_call hworking.service fun info m _ => ?_)
  refine keeps_bind (obeys_checked hworking ?_)
  refine keeps_bind (keeps_call hworking.service fun allocated m _ => ?_)
  refine keeps_bind (obeys_checked hworking ?_)
  refine keeps_bind (keeps_call hworking.service fun status m _ => ?_)
  exact keeps_bind (obeys_checked hworking (keeps_pure ⟨hworking, rfl, hmode⟩))

/-- The kernel is brought to its place, and the address that is returned is the one at which the
pages were allocated. -/
theorem obeys_loadSegments (hs : s.Working) (u : Uefi) (kernelBuffer : Addr) :
    Obeys (fun first _ s' => s'.Working ∧ s'.mapKey = s.mapKey ∧ s'.mode = s.mode ∧
      s'.first = some first) (loadSegments u kernelBuffer) m s := by
  refine keeps_bind (keeps_memory ?_)
  refine keeps_bind (keeps_call hs.service fun status m' _ => ?_)
  have hworking :
      BootState.Working { s with first := some (calcLoadAddressRange m kernelBuffer).1 } :=
    ⟨hs.ended, hs.tried, hs.failed, hs.unset, hs.entered⟩
  refine keeps_bind (obeys_checked hworking ?_)
  refine keeps_bind (keeps_memory (keeps_bind (keeps_setMemory ?_)))
  refine keeps_bind (obeys_print hworking.ended hworking.unset fun m => ?_)
  refine keeps_bind (keeps_call hworking.service fun status m _ => ?_)
  exact keeps_bind (obeys_checked hworking (keeps_pure ⟨hworking, rfl, rfl, rfl⟩))

/-- Before the end of the boot services, perhaps after a first attempt. -/
structure BootState.Leaving (s : BootState) : Prop where
  ended : s.ended = false
  failed : s.failed = false
  unset : s.unset = false
  entered : s.entered = false

/-- After the boot services have ended the mode and the pages are what they were. -/
structure BootState.Ended (s s' : BootState) : Prop where
  ended : s'.ended = true
  failed : s'.failed = false
  unset : s'.unset = false
  entered : s'.entered = false
  mode : s'.mode = s.mode
  first : s'.first = s.first

/-- The boot services are left with the key of the last memory map, or the call fails and the
loader prints that it could not and halts. -/
theorem obeys_exitBootServices (hs : s.Leaving) (imageHandle : Addr) {mapKey : BitVec 64}
    (hkey : mapKey = s.mapKey) :
    Obeys (fun _ _ s' => s.Ended s') (do
      let status ← call (.exitBootServices imageHandle mapKey)
      check status "Could not exit boot service%r\n") m s := by
  refine keeps_bind (keeps_call ⟨hs.ended, hs.failed, hs.unset, hkey⟩ fun status m _ => ?_)
  refine keeps_check (fun herror => ?_) fun hok => ?_
  · have hafter : s.after (.exitBootServices imageHandle mapKey) status =
        { s with tried := true, failed := s.failed || s.tried } := if_pos herror
    change (s.after (.exitBootServices imageHandle mapKey) status).Allowed m
      (.print "Could not exit boot service%r\n" [.status status])
    rw [hafter]
    exact ⟨hs.unset, fun hended => absurd (hs.ended.symm.trans hended) (by decide)⟩
  · have hafter : s.after (.exitBootServices imageHandle mapKey) status =
        { s with ended := true } := if_neg (by rw [hok]; decide)
    change s.Ended (s.after (.exitBootServices imageHandle mapKey) status)
    rw [hafter]
    exact ⟨rfl, hs.failed, hs.unset, hs.entered, rfl, rfl⟩

/-- The second attempt to leave the boot services, with the key of a new memory map if the
firmware gives one, or a halt. -/
theorem obeys_retryExit (hs : s.Leaving) (htried : s.tried = true) (imageHandle : Addr)
    {memmap : MemoryMap} (hkey : memmap.mapKey = s.mapKey) :
    Obeys (fun _ _ s' => s.Ended s') (retryExit imageHandle memmap) m s := by
  refine keeps_bind ((obeys_getMemoryMap hs.ended hs.failed hs.unset memmap).mono
    fun result m s₁ hmap => ?_)
  obtain ⟨status, memmap₁⟩ := result
  have hs₁ : s₁.Leaving ∧ memmap₁.mapKey = s₁.mapKey ∧ s₁.mode = s.mode ∧ s₁.first = s.first := by
    rcases hmap with ⟨hsmall, rfl⟩ | rfl
    · obtain ⟨-, rfl⟩ := Prod.mk.inj hsmall
      exact ⟨hs, hkey, rfl, rfl⟩
    · refine ⟨⟨hs.ended, ?_, hs.unset, hs.entered⟩, rfl, rfl, rfl⟩
      rw [hs.failed, htried]
      exact Bool.and_false _
  obtain ⟨hs₁, hkey₁, hmode, hfirst⟩ := hs₁
  have hexit : ∀ m, Obeys (fun _ _ s' => s.Ended s') (do
      let status ← call (.exitBootServices imageHandle memmap₁.mapKey)
      check status "Could not exit boot service%r\n") m s₁ := by
    refine fun m => (obeys_exitBootServices hs₁ imageHandle hkey₁).mono fun _ _ s' hs' => ?_
    exact ⟨hs'.ended, hs'.failed, hs'.unset, hs'.entered, hs'.mode.trans hmode,
      hs'.first.trans hfirst⟩
  change Obeys _ ((if efiError status then _ else _) >>= _) m s₁
  by_cases herror : efiError status = true
  · rw [if_pos herror]
    exact keeps_bind (obeys_print hs₁.ended hs₁.unset fun m => hexit m)
  · rw [if_neg herror]
    exact keeps_bind (keeps_pure (hexit m))

/-- **Leaving the boot services**, at the first or the second attempt: where the loader goes on,
one of the two has succeeded with a key that was current. -/
theorem obeys_leaveBootServices (hs : s.Working) (imageHandle : Addr) (memmap : MemoryMap)
    (hkey : s.mapKey = memmap.mapKey) :
    Obeys (fun _ _ s' => s.Ended s') (leaveBootServices imageHandle memmap) m s := by
  refine keeps_bind (keeps_call ⟨hs.ended, hs.failed, hs.unset, hkey.symm⟩ fun status m _ => ?_)
  by_cases herror : efiError status = true
  · rw [if_pos herror]
    have htried : s.after (.exitBootServices imageHandle memmap.mapKey) status =
        { s with tried := true } := by
      rw [BootState.after, if_pos herror, hs.failed, hs.tried]
      rfl
    change Obeys _ _ _ (s.after (.exitBootServices imageHandle memmap.mapKey) status)
    rw [htried]
    have hleaving : BootState.Leaving { s with tried := true } :=
      ⟨hs.ended, hs.failed, hs.unset, hs.entered⟩
    refine (obeys_retryExit hleaving rfl imageHandle hkey.symm).mono fun _ _ s' hs' => ?_
    exact ⟨hs'.ended, hs'.failed, hs'.unset, hs'.entered, hs'.mode, hs'.first⟩
  · rw [if_neg herror]
    have hended : s.after (.exitBootServices imageHandle memmap.mapKey) status =
        { s with ended := true } := if_neg herror
    change Obeys _ _ _ (s.after (.exitBootServices imageHandle memmap.mapKey) status)
    rw [hended]
    exact keeps_pure ⟨rfl, hs.failed, hs.unset, hs.entered, rfl, rfl⟩

/-- The kernel is entered with the mode of the screen and behind the address of its pages, or
the pixel format is reported and the loader halts. -/
theorem obeys_startKernel {s' : BootState} (hs : s.Ended s') {mode : GraphicsMode}
    {kernelFirstAddr : Addr} (hmode : s.mode = some mode)
    (hfirst : s.first = some kernelFirstAddr) :
    Obeys (fun _ _ _ => True) (startKernel mode kernelFirstAddr) m s' := by
  have hmode' := hs.mode.trans hmode
  have hfirst' := hs.first.trans hfirst
  refine keeps_bind (keeps_memory ?_)
  cases hformat : kernelPixelFormat mode.pixelFormat with
  | none =>
      refine keeps_bind (keeps_call ⟨hs.unset, fun _ => Or.inr ⟨mode, hmode', hformat⟩⟩
        fun _ m _ => ?_)
      exact keeps_stop .halted
  | some format =>
      refine keeps_bind (keeps_call ⟨hs.ended, hs.failed, hs.unset, hs.entered,
        ⟨mode, format, hmode', hformat, rfl⟩, kernelFirstAddr, hfirst', rfl⟩ fun _ m _ => ?_)
      refine keeps_bind (keeps_call ⟨hs.unset, fun _ => Or.inl rfl⟩ fun _ m _ => ?_)
      exact keeps_stop .halted

end Phases

/-- **The loader and the firmware.**  In every run, whatever the firmware answers:

* no boot service is called after the boot services have ended;
* when a call has failed whose status the loader halts upon (the first `GetMemoryMap`, `Open`,
  `Close`, `GetInfo`, `AllocatePool`, `Read`, `AllocatePages`, `FreePool` of the kernel's buffer,
  the second `ExitBootServices`), nothing but `Print` is called;
* when a call has failed whose status it ignores and a pointer is not set (`OpenProtocol`,
  `OpenVolume`, `LocateHandleBuffer`), nothing but `FreePool` of the handles;
* when the first `ExitBootServices` has failed, nothing but `GetMemoryMap`, `Print` and
  `ExitBootServices` until the boot services have ended;
* the boot services are left with the key of the last memory map;
* the kernel is entered once at most, after they have ended, with the configuration of the
  screen's mode and at the address in the loaded image;
* nothing is printed without the boot services, unless the pixel format is not supported or the
  kernel has returned. -/
theorem uefiMain_keepsProtocol (u : Uefi) (imageHandle memmapBuf : Addr)
    (buf : Vector (BitVec 8) 256) (memory : ByteMemory) :
    ∀ trace rest, Runs (uefiMain u imageHandle memmapBuf buf memory) trace rest →
      bootProtocol.Obeyed BootState.start trace := by
  intro trace rest hrun
  have hstart : BootState.start.Working := ⟨rfl, rfl, rfl, rfl, rfl⟩
  have hobeys : Obeys (fun _ _ _ => True) (uefiMain u imageHandle memmapBuf buf) memory
      BootState.start := by
    refine keeps_bind ((obeys_writeMemmap hstart imageHandle memmapBuf buf).mono
      fun result m s₁ hs₁ => ?_)
    obtain ⟨memmap, rootDir⟩ := result
    obtain ⟨hs₁, hkey₁⟩ := hs₁
    refine keeps_bind ((obeys_readKernel hs₁ rootDir).mono fun result m s₂ hs₂ => ?_)
    obtain ⟨mode, kernelBuffer⟩ := result
    obtain ⟨hs₂, hkey₂, hmode₂⟩ := hs₂
    refine keeps_bind ((obeys_loadSegments hs₂ u kernelBuffer).mono fun first m s₃ hs₃ => ?_)
    obtain ⟨hs₃, hkey₃, hmode₃, hfirst₃⟩ := hs₃
    have hkey : s₃.mapKey = memmap.mapKey := hkey₃.trans (hkey₂.trans hkey₁)
    refine keeps_bind ((obeys_leaveBootServices hs₃ imageHandle memmap hkey).mono
      fun _ m s₄ hs₄ => ?_)
    exact obeys_startKernel hs₄ (hmode₃.trans hmode₂) hfirst₃
  exact (Protocol.Keeps.sound hobeys hrun
    (Protocol.answered_of_expected (fun _ _ => trivial) _ _)).1

end Mikanos.Loader
