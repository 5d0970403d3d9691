import Mikanos.Xhci.Device

/-!
# HID class drivers

`HIDBaseDriver` and the two drivers derived from it.  A driver is reached by its
address in the device that created it; a pointer without a driver behind it is
a `Fault`.  Requests go back to the parent device, so every function here is a
function of the device.
-/

namespace Mikanos.Xhci.Device

open Mikanos.Usb

/-- `sizeof` of either HID driver. -/
def hidSizeOf : BitVec 64 := 2304

/-- `HIDBaseDriver::kBufferSize`. -/
def kBufferSize : Nat := 1024

/-- `buf_.data()` of the driver at `p`. -/
def hidBuffer (p : Addr) : Addr := p + 36

/-- The constructor of a HID driver, with `observers` subscribed to it. -/
def newHidDriver (kind : HidKind) (interfaceNumber : BitVec 8) (observers : Nat) : HidDriver where
  kind := kind
  interfaceIndex := interfaceNumber
  epInterruptIn := ⟨0⟩
  epInterruptOut := ⟨0⟩
  inPacketSize := match kind with
    | .keyboard => 8
    | .mouse => 3
  initializePhase := 0
  previousBuf := List.replicate kBufferSize 0
  numObservers := observers
  notified := []

/-- `*p` for a class driver pointer. -/
def driverAt (dev : Device) (p : Addr) : Except Fault HidDriver :=
  match dev.drivers p with
  | none => .error .nullDereference
  | some d => .ok d

/-- The driver at `p` changes. -/
def setDriver (dev : Device) (p : Addr) (d : HidDriver) : Device :=
  { dev with drivers := Function.update dev.drivers p (some d) }

/-- `HIDBaseDriver::SetEndpoint(config)`. -/
def hidSetEndpoint (d : HidDriver) (config : EndpointConfig) : HidDriver :=
  if config.epType = .kInterrupt ∧ config.epId.isIn then { d with epInterruptIn := config.epId }
  else if config.epType = .kInterrupt ∧ ¬ config.epId.isIn then
    { d with epInterruptOut := config.epId }
  else d

/-- `class_driver->SetEndpoint(config)`. -/
def driverSetEndpoint (dev : Device) (p : Addr) (config : EndpointConfig) :
    Except Fault (Error × Device) := do
  let d ← dev.driverAt p
  return (.kSuccess, dev.setDriver p (hidSetEndpoint d config))

/-- The SET_PROTOCOL request of `HIDBaseDriver::OnEndpointsConfigured`, for the
boot protocol. -/
def setProtocolData (interfaceIndex : BitVec 8) : SetupData :=
  { requestType := requestTypeBits 0 1 1
    request := kSetProtocol
    value := 0
    index := interfaceIndex.setWidth 16
    length := 0 }

/-- `class_driver->OnEndpointsConfigured()`. -/
def driverOnEndpointsConfigured (dev : Device) (p : Addr) : Except Fault (Error × Device) := do
  let d ← dev.driverAt p
  (dev.setDriver p { d with initializePhase := 1 }).controlOut kDefaultControlPipeID
    (setProtocolData d.interfaceIndex) nullptr 0 p

/-- `class_driver->OnControlCompleted(ep_id, setup_data, buf, len)`, which uses
none of its arguments. -/
def driverOnControlCompleted (dev : Device) (p : Addr) : Except Fault (Error × Device) := do
  let d ← dev.driverAt p
  if d.initializePhase = 1 then
    (dev.setDriver p { d with initializePhase := 2 }).interruptIn d.epInterruptIn (hidBuffer p)
      d.inPacketSize
  else return (.kNotImplemented, dev)

/-- The bytes `i .. i + n - 1` of an object. -/
def readBytes (m : Dma) (p : Addr) (i n : Nat) : Except Fault (List (BitVec 8)) :=
  (List.range' i n).mapM (m.byte p)

/-- Keys are compared. -/
instance : LawfulBEq (BitVec 8) := inferInstance

/-- `HIDKeyboardDriver::OnDataReceived`: the keys of the report that the whole
previous buffer does not contain. -/
def keyboardOnDataReceived (d : HidDriver) (report : List (BitVec 8)) : List Notification :=
  let keys := report.filter fun key => key ≠ 0 ∧ key ∉ d.previousBuf
  keys.flatMap fun key => List.replicate d.numObservers (.keyPush key)

/-- `HIDMouseDriver::OnDataReceived`. -/
def mouseOnDataReceived (d : HidDriver) (displacementX displacementY : BitVec 8) :
    List Notification :=
  List.replicate d.numObservers (.mouseMove displacementX displacementY)

/-- `OnDataReceived` of the driver at `p`. -/
def driverOnDataReceived (m : Dma) (p : Addr) (d : HidDriver) : Except Fault HidDriver :=
  match d.kind with
  | .keyboard => do
      let report ← readBytes m (hidBuffer p) 2 6
      return { d with notified := d.notified ++ keyboardOnDataReceived d report }
  | .mouse => do
      let x ← m.byte (hidBuffer p) 1
      let y ← m.byte (hidBuffer p) 2
      return { d with notified := d.notified ++ mouseOnDataReceived d x y }

/-- `std::copy_n(buf_.begin(), len, previous_buf_.begin())`. -/
def keepReport (m : Dma) (p : Addr) (d : HidDriver) (len : Int) : Except Fault HidDriver :=
  if (kBufferSize : Int) < len then .error .outOfBounds
  else do
    let copied ← readBytes m (hidBuffer p) 0 len.toNat
    return { d with previousBuf := copied ++ d.previousBuf.drop len.toNat }

/-- `class_driver->OnInterruptCompleted(ep_id, buf, len)`, which reads its own
buffer and not `buf`. -/
def driverOnInterruptCompleted (m : Dma) (dev : Device) (p : Addr) (epId : EndpointID)
    (_buf : Addr) (len : Int) : Except Fault (Error × Device) := do
  let d ← dev.driverAt p
  if epId.isIn then do
    let d ← driverOnDataReceived m p d
    let d ← keepReport m p d len
    (dev.setDriver p d).interruptIn d.epInterruptIn (hidBuffer p) d.inPacketSize
  else return (.kNotImplemented, dev)

end Mikanos.Xhci.Device
