import Mikanos.Usb.ArrayMap
import Mikanos.Usb.Types
import Mikanos.Xhci.Context
import Mikanos.Xhci.Ring

/-!
# Devices and their transfers

`Device` is `usb::xhci::Device` together with its base class `usb::Device`: the
virtual transfer functions of the base have one override each, so the two
layers of the source share one state.  The class drivers of a device are part
of it as well, by address, because they are created by it and reached through
its pointers only.

A control transfer is two or three TRBs on the ring of its endpoint.  The
driver notes in `setup_stage_map_` which Setup Stage TRB belongs to the TRB
that will be reported when the transfer completes.
-/

namespace Mikanos.Xhci

open BitField Mikanos.Usb

/-! ## State -/

/-- The two HID boot protocols with a driver. -/
inductive HidKind where
  | keyboard
  | mouse
  deriving DecidableEq, Repr

/-- A call of an observer. -/
inductive Notification where
  | keyPush (keycode : BitVec 8)
  | mouseMove (displacementX displacementY : BitVec 8)
  deriving DecidableEq, Repr

/-- `HIDKeyboardDriver` or `HIDMouseDriver`.  `buf_` is written by the
controller and lives in `Dma`; `notified` is the history of observer calls. -/
structure HidDriver where
  kind : HidKind
  interfaceIndex : BitVec 8
  epInterruptIn : EndpointID
  epInterruptOut : EndpointID
  inPacketSize : Int
  initializePhase : Nat
  previousBuf : List (BitVec 8)
  numObservers : Nat
  notified : List Notification

/-- `usb::xhci::Device` at address `self`.  `doorbell` is the history of the
values written to the device's doorbell register. -/
structure Device where
  self : Addr
  -- usb::Device
  classDrivers : Fin 16 → Addr
  drivers : Addr → Option HidDriver
  numConfigurations : BitVec 8
  configIndex : BitVec 8
  isInitialized : Bool
  initializePhase : Nat
  epConfigs : Fin 16 → EndpointConfig
  numEpConfigs : Nat
  eventWaiters : ArrayMap SetupData Addr 4
  -- usb::xhci::Device
  slotContext : SlotContext
  inputContext : InputContext
  slotId : BitVec 8
  transferRings : Fin 31 → Option Ring
  setupStageMap : ArrayMap Addr Addr 16
  doorbell : List (BitVec 8)

namespace Device

/-- Transfer rings are numbered by literals. -/
instance : NeZero 31 := ⟨by decide⟩

/-- `sizeof(usb::xhci::Device)`. -/
def sizeOf : BitVec 64 := 3520

/-- `&ctx_`. -/
def ctxAddr (dev : Device) : Addr := dev.self + 768

/-- `InputContext()`. -/
def inputCtxAddr (dev : Device) : Addr := dev.self + 1792

/-- `Buffer()`: `buf_.data()`. -/
def buffer (dev : Device) : Addr := dev.self + 136

/-- `Device(slot_id, dbreg)` in memory of the pool, which is zero until it is
handed out. -/
def new (self : Addr) (slotId : BitVec 8) : Device where
  self := self
  classDrivers := fun _ => nullptr
  drivers := fun _ => none
  numConfigurations := 0
  configIndex := 0
  isInitialized := false
  initializePhase := 0
  epConfigs := fun _ => ⟨⟨0⟩, .kControl, 0, 0⟩
  numEpConfigs := 0
  eventWaiters := .empty nullptr
  slotContext := Dwords.zero
  inputContext := InputContext.zero
  slotId := slotId
  transferRings := fun _ => none
  setupStageMap := .empty nullptr
  doorbell := []

/-! ## Transfer rings -/

/-- A subscript of `transfer_rings_` and of `ep_contexts`. -/
def dciIndex (dci : Int) : Except Fault (Fin 31) :=
  if h : 1 ≤ dci ∧ dci ≤ 31 then .ok ⟨(dci - 1).toNat, by omega⟩ else .error .outOfBounds

/-- A `Ring` object in memory of the pool. -/
def rawRing : Ring := ⟨nullptr, 0, false, 0, fun _ => Trb.zero⟩

/-- `transfer_rings_[i] = tr`. -/
def setRing (dev : Device) (i : Fin 31) (tr : Option Ring) : Device :=
  { dev with transferRings := Function.update dev.transferRings i tr }

/-- The ring object `AllocTransferRing` makes of its block.  The result of
`Initialize` is not looked at. -/
def placeRing (bufSize : Nat) (block : Addr × Pool) : Option Ring × Pool :=
  if block.1 = nullptr then (none, block.2)
  else
    let result := rawRing.initializeRing bufSize block.2
    (some result.2.1, result.2.2)

/-- `AllocTransferRing(index, buf_size)`, for the ring at subscript `i`. -/
def allocTransferRing (dev : Device) (i : Fin 31) (bufSize : Nat) (pool : Pool) :
    Option Ring × Device × Pool :=
  let result := placeRing bufSize (pool.allocArray 32 1 64 4096)
  (result.1, dev.setRing i result.1, result.2)

/-- The common part of the destructive updates of a transfer: the ring, and a
ring of the doorbell. -/
def ringDoorbell (dev : Device) (dci : Int) : Device :=
  { dev with doorbell := dev.doorbell ++ [BitVec.ofInt 8 dci] }

/-! ## Control transfers -/

/-- `MakeSetupStageTRB(setup_data, transfer_type)`. -/
def makeSetupStageTRB (setupData : SetupData) (transferType : BitVec 2) : Trb :=
  (((((setupStageTRB.setBits 0 0 setupData.requestType).setBits 0 8 setupData.request).setBits
    0 16 setupData.value).setBits 1 0 setupData.index).setBits 1 16 setupData.length).setBits
    3 16 transferType

/-- `MakeDataStageTRB(buf, len, dir_in)`. -/
def makeDataStageTRB (buf : Addr) (len : Int) (dirIn : Bool) : Trb :=
  (((dataStageTRB.setParameter buf).setBits 2 0 (BitVec.ofInt 17 len)).setBits 2 17
    (0 : BitVec 5)).setBits 3 16 (BitVec.ofBool dirIn)

/-- `bits.interrupt_on_completion = true`. -/
def interruptOnCompletion (t : Trb) : Trb := t.setBits 3 5 (1 : BitVec 1)

/-- `bits.direction = true` of a Status Stage TRB. -/
def statusDirection (t : Trb) : Trb := t.setBits 3 16 (1 : BitVec 1)

/-- `SetupStageTRB::kNoDataStage`, `kOutDataStage` and `kInDataStage`. -/
def kNoDataStage : BitVec 2 := 0
def kOutDataStage : BitVec 2 := 2
def kInDataStage : BitVec 2 := 3

/-- The common body of `usb::Device::ControlIn` and `ControlOut`. -/
def addWaiter (dev : Device) (setupData : SetupData) (issuer : Addr) : Device :=
  if issuer ≠ nullptr then { dev with eventWaiters := dev.eventWaiters.put setupData issuer }
  else dev

/-- A control transfer with a data stage: `Push` of the three TRBs.  The result
is the positions of the Data and Setup Stage TRBs. -/
def pushWithData (tr : Ring) (setup data status : Trb) : Except Fault (Addr × Addr × Ring) := do
  let (setupTrbPosition, tr) ← tr.push setup
  let (dataTrbPosition, tr) ← tr.push data
  let (_, tr) ← tr.push status
  return (dataTrbPosition, setupTrbPosition, tr)

/-- A control transfer without data stage: `Push` of the two TRBs. -/
def pushNoData (tr : Ring) (setup status : Trb) : Except Fault (Addr × Addr × Ring) := do
  let (setupTrbPosition, tr) ← tr.push setup
  let (statusTrbPosition, tr) ← tr.push status
  return (statusTrbPosition, setupTrbPosition, tr)

/-- The TRBs of one control transfer, with or without a data stage. -/
def pushTransfer (tr : Ring) (dataType : BitVec 2) (dirIn : Bool) (dataStatus : Trb)
    (setupData : SetupData) (buf : Addr) (len : Int) : Except Fault (Addr × Addr × Ring) :=
  if buf ≠ nullptr then
    pushWithData tr (makeSetupStageTRB setupData dataType)
      (interruptOnCompletion (makeDataStageTRB buf len dirIn)) dataStatus
  else
    pushNoData tr (makeSetupStageTRB setupData kNoDataStage)
      (interruptOnCompletion (statusDirection statusStageTRB))

/-- The pushes of a control transfer can only come to grief on a ring without buffer, where they
store through a null pointer. -/
theorem pushTransfer_ne_error {tr : Ring} {dataType : BitVec 2} {dirIn : Bool}
    {dataStatus : Trb} {setupData : SetupData} {buf : Addr} {len : Int} {f : Fault}
    (hf : f ≠ .nullDereference) :
    pushTransfer tr dataType dirIn dataStatus setupData buf len ≠ .error f := by
  unfold pushTransfer
  split
  · unfold pushWithData
    refine bind_ne_error (Ring.push_ne_error hf) fun _ _ => ?_
    refine bind_ne_error (Ring.push_ne_error hf) fun _ _ => ?_
    refine bind_ne_error (Ring.push_ne_error hf) fun _ _ h => ?_
    cases h
  · unfold pushNoData
    refine bind_ne_error (Ring.push_ne_error hf) fun _ _ => ?_
    refine bind_ne_error (Ring.push_ne_error hf) fun _ _ h => ?_
    cases h

/-- The end of `ControlIn` and `ControlOut`.  `TRBDynamicCast` of the position
just pushed is that position. -/
def noteTransfer (dev : Device) (i : Fin 31) (dci : Int) (pushed : Addr × Addr × Ring) : Device :=
  ({ dev.setRing i (some pushed.2.2) with
    setupStageMap := dev.setupStageMap.put pushed.1 pushed.2.1 }).ringDoorbell dci

/-- The common body of `ControlIn` and `ControlOut`, which differ in the type of
a transfer with data, the direction of its data stage and its status TRB. -/
def controlTransfer (dev : Device) (dataType : BitVec 2) (dirIn : Bool) (dataStatus : Trb)
    (epId : EndpointID) (setupData : SetupData) (buf : Addr) (len : Int) (issuer : Addr) :
    Except Fault (Error × Device) := do
  let dev := dev.addWaiter setupData issuer
  if epId.number < 0 ∨ 15 < epId.number then
    return (.kInvalidEndpointNumber, dev)
  let dci := epId.address
  let i ← dciIndex dci
  match dev.transferRings i with
  | none => return (.kTransferRingNotSet, dev)
  | some tr =>
      let pushed ← pushTransfer tr dataType dirIn dataStatus setupData buf len
      return (.kSuccess, dev.noteTransfer i dci pushed)

/-- `xhci::Device::ControlIn`. -/
def controlIn (dev : Device) (epId : EndpointID) (setupData : SetupData) (buf : Addr) (len : Int)
    (issuer : Addr) : Except Fault (Error × Device) :=
  dev.controlTransfer kInDataStage true statusStageTRB epId setupData buf len issuer

/-- `xhci::Device::ControlOut`.  The status stage is an IN transaction here. -/
def controlOut (dev : Device) (epId : EndpointID) (setupData : SetupData) (buf : Addr) (len : Int)
    (issuer : Addr) : Except Fault (Error × Device) :=
  dev.controlTransfer kOutDataStage false (statusDirection statusStageTRB) epId setupData buf len
    issuer

/-- `xhci::Device::InterruptIn`. -/
def interruptIn (dev : Device) (epId : EndpointID) (buf : Addr) (len : Int) :
    Except Fault (Error × Device) := do
  let dci := epId.address
  let i ← dciIndex dci
  match dev.transferRings i with
  | none => return (.kTransferRingNotSet, dev)
  | some tr =>
      let (_, tr) ← tr.push (normalTRB buf (BitVec.ofInt 17 len))
      return (.kSuccess, (dev.setRing i (some tr)).ringDoorbell dci)

/-- `GetDescriptor(dev, ep_id, desc_type, desc_index, buf, len)`. -/
def getDescriptor (dev : Device) (epId : EndpointID) (descType descIndex : BitVec 8) (buf : Addr)
    (len : Int) : Except Fault (Error × Device) :=
  let setupData : SetupData :=
    { requestType := requestTypeBits 1 0 0
      request := kGetDescriptor
      value := (descType.setWidth 16 <<< 8) ||| descIndex.setWidth 16
      index := 0
      length := BitVec.ofInt 16 len }
  dev.controlIn epId setupData buf len nullptr

/-- The request of `SetConfiguration(dev, ep_id, config_value)`. -/
def setConfigurationData (configValue : BitVec 8) : SetupData :=
  { requestType := requestTypeBits 0 0 0
    request := kSetConfiguration
    value := configValue.setWidth 16
    index := 0
    length := 0 }

/-- `SetConfiguration(dev, ep_id, config_value)`. -/
def setConfiguration (dev : Device) (epId : EndpointID) (configValue : BitVec 8) :
    Except Fault (Error × Device) :=
  dev.controlOut epId (setConfigurationData configValue) nullptr 0 nullptr

end Device

end Mikanos.Xhci
