import Mikanos.Usb.ClassDriver

/-!
# Descriptors in a received buffer

`ConfigurationDescriptorReader` walks over a buffer of descriptors: the first
byte of each is its length, the second its type.  `Next` adds the length at the
cursor to the cursor and stops at the end of the received data; nothing checks
the lengths a device sends.  Loops over `Next` have a fuel that is larger than
the number of descriptors any buffer can hold, so running out of it means that
the source's loop does not end.
-/

namespace Mikanos.Xhci.Device

open Mikanos.Usb

/-- `DeviceDescriptor::kType`. -/
def kDeviceDescriptor : BitVec 8 := 1

/-- `ConfigurationDescriptor::kType`. -/
def kConfigurationDescriptor : BitVec 8 := 2

/-- `InterfaceDescriptor::kType`. -/
def kInterfaceDescriptor : BitVec 8 := 4

/-- `EndpointDescriptor::kType`. -/
def kEndpointDescriptor : BitVec 8 := 5

/-- `HIDDescriptor::kType`. -/
def kHidDescriptor : BitVec 8 := 33

/-- `class ConfigurationDescriptorReader`, with the cursor `p_` counted from the
start of the buffer. -/
structure Reader where
  descBuf : Addr
  descBufLen : Int
  p : Nat

namespace Reader

/-- `ConfigurationDescriptorReader::Next()`. -/
def next (m : Dma) (r : Reader) : Except Fault (Option Nat × Reader) := do
  let length ← m.byte r.descBuf r.p
  let r := { r with p := r.p + length.toNat }
  return (if (r.p : Int) < r.descBufLen then some r.p else none, r)

/-- `ConfigurationDescriptorReader::Next<T>()` for the `T` of type `kType`. -/
def nextOf (m : Dma) (kType : BitVec 8) : Nat → Reader → Except Fault (Option Nat × Reader)
  | 0, _ => .error .endlessLoop
  | fuel + 1, r => do
      let (n, r) ← r.next m
      match n with
      | none => return (none, r)
      | some d =>
          let type ← m.byte r.descBuf (d + 1)
          if type = kType then return (some d, r) else nextOf m kType fuel r

end Reader

/-- The fields of an interface descriptor the driver uses. -/
structure InterfaceDescriptor where
  interfaceNumber : BitVec 8
  numEndpoints : BitVec 8
  interfaceClass : BitVec 8
  interfaceSubClass : BitVec 8
  interfaceProtocol : BitVec 8

/-- The interface descriptor at offset `d` of the buffer. -/
def readInterface (m : Dma) (buf : Addr) (d : Nat) : Except Fault InterfaceDescriptor := do
  let interfaceNumber ← m.byte buf (d + 2)
  let numEndpoints ← m.byte buf (d + 4)
  let interfaceClass ← m.byte buf (d + 5)
  let interfaceSubClass ← m.byte buf (d + 6)
  let interfaceProtocol ← m.byte buf (d + 7)
  return ⟨interfaceNumber, numEndpoints, interfaceClass, interfaceSubClass, interfaceProtocol⟩

/-- `MakeEPConfig` of an endpoint descriptor's address, attributes, packet size
(low and high byte) and interval. -/
def makeEPConfig (address attributes sizeLow sizeHigh interval : BitVec 8) : EndpointConfig where
  epId := .ofNumber (address.extractLsb' 0 4).toNat (address.getLsbD 7)
  epType := .ofBits (attributes.extractLsb' 0 2)
  maxPacketSize := (sizeHigh ++ sizeLow).toNat
  interval := interval.toNat

/-- `MakeEPConfig(*ep_desc)` for the endpoint descriptor at offset `d`. -/
def readEPConfig (m : Dma) (buf : Addr) (d : Nat) : Except Fault EndpointConfig := do
  let address ← m.byte buf (d + 2)
  let attributes ← m.byte buf (d + 3)
  let sizeLow ← m.byte buf (d + 4)
  let sizeHigh ← m.byte buf (d + 5)
  let interval ← m.byte buf (d + 6)
  return makeEPConfig address attributes sizeLow sizeHigh interval

/-- What `Log(kDebug, *hid_desc)` reads: the fixed part and, per class
descriptor, three bytes behind it. -/
def logHid (m : Dma) (buf : Addr) (d : Nat) : Except Fault Unit := do
  let _ ← m.byte buf (d + 2)
  let _ ← m.byte buf (d + 3)
  let numDescriptors ← m.byte buf (d + 5)
  let _ ← readBytes m buf (d + 6) (3 * numDescriptors.toNat)
  return ()

/-- The class driver statics: which `default_observer` is set. -/
structure DefaultObservers where
  keyboard : Bool
  mouse : Bool

/-- How many observers a new driver of the given kind gets. -/
def DefaultObservers.count (obs : DefaultObservers) : HidKind → Nat
  | .keyboard => obs.keyboard.toNat
  | .mouse => obs.mouse.toNat

/-- `NewClassDriver` after the allocation of a driver of the given kind.  The
constructor runs even on a null pointer. -/
def placeClassDriver (dev : Device) (kind : HidKind) (interfaceNumber : BitVec 8)
    (observers : Nat) (block : Addr × Pool) : Except Fault (Addr × Device × Pool) :=
  if block.1 = nullptr then .error .nullDereference
  else .ok (block.1, dev.setDriver block.1 (newHidDriver kind interfaceNumber observers), block.2)

/-- The kind of driver for an interface, if it is supported. -/
def supportedKind (ifDesc : InterfaceDescriptor) : Option HidKind :=
  if ifDesc.interfaceClass = 3 ∧ ifDesc.interfaceSubClass = 1 then
    if ifDesc.interfaceProtocol = 1 then some .keyboard
    else if ifDesc.interfaceProtocol = 2 then some .mouse
    else none
  else none

/-- `NewClassDriver(dev, if_desc)`. -/
def newClassDriver (obs : DefaultObservers) (dev : Device) (ifDesc : InterfaceDescriptor)
    (pool : Pool) : Except Fault (Addr × Device × Pool) :=
  match supportedKind ifDesc with
  | none => .ok (nullptr, dev, pool)
  | some kind =>
      placeClassDriver dev kind ifDesc.interfaceNumber (obs.count kind)
        (pool.allocMem hidSizeOf 0 0)

/-- One endpoint is taken over: `ep_configs_` and `class_drivers_`. -/
def addEndpoint (dev : Device) (conf : EndpointConfig) (classDriver : Addr) :
    Except Fault Device :=
  if h : dev.numEpConfigs < 16 ∧ 0 ≤ conf.epId.number ∧ conf.epId.number < 16 then
    .ok { dev with
      epConfigs := Function.update dev.epConfigs ⟨dev.numEpConfigs, h.1⟩ conf
      numEpConfigs := dev.numEpConfigs + 1
      classDrivers := Function.update dev.classDrivers
        ⟨conf.epId.number.toNat, by omega⟩ classDriver }
  else .error .tableOverflow

/-- `num_ep_configs_ = 0`. -/
def clearEndpoints (dev : Device) : Device := { dev with numEpConfigs := 0 }

/-- The loop of `InitializePhase2` over the endpoints of an interface. -/
def endpointLoop (m : Dma) (numEndpoints : BitVec 8) (classDriver : Addr) :
    Nat → Reader → Device → Except Fault (Reader × Device)
  | 0, _, _ => .error .endlessLoop
  | fuel + 1, r, dev =>
      if dev.numEpConfigs < numEndpoints.toNat then do
        let (desc, r) ← r.next m
        match desc with
        | none => .error .endOfData
        | some d =>
            let type ← m.byte r.descBuf (d + 1)
            if type = kEndpointDescriptor then do
              let conf ← readEPConfig m r.descBuf d
              let dev ← dev.addEndpoint conf classDriver
              endpointLoop m numEndpoints classDriver fuel r dev
            else if type = kHidDescriptor then do
              logHid m r.descBuf d
              endpointLoop m numEndpoints classDriver fuel r dev
            else endpointLoop m numEndpoints classDriver fuel r dev
      else .ok (r, dev)

/-- The loop of `InitializePhase2` over the interfaces.  The result is the class
driver of the first supported one, or null. -/
def interfaceLoop (m : Dma) (obs : DefaultObservers) (loopFuel : Nat) :
    Nat → Reader → Device → Pool → Except Fault (Addr × Device × Pool)
  | 0, _, _, _ => .error .endlessLoop
  | fuel + 1, r, dev, pool => do
      let (ifOffset, r) ← r.nextOf m kInterfaceDescriptor loopFuel
      match ifOffset with
      | none => return (nullptr, dev, pool)
      | some d =>
          let ifDesc ← readInterface m r.descBuf d
          let (classDriver, dev, pool) ← newClassDriver obs dev ifDesc pool
          if classDriver = nullptr then interfaceLoop m obs loopFuel fuel r dev pool
          else do
            let (_, dev) ← endpointLoop m ifDesc.numEndpoints classDriver loopFuel r
              dev.clearEndpoints
            return (classDriver, dev, pool)

/-- More than the descriptors and endpoints of a buffer of `len` bytes. -/
def loopFuelOf (len : Int) : Nat := len.toNat + 257

/-- The end of `InitializePhase2`, when the loop has found `classDriver`. -/
def selectConfiguration (m : Dma) (buf classDriver : Addr) (dev : Device) (pool : Pool) :
    Except Fault (Error × Device × Pool) :=
  if classDriver = nullptr then .ok (.kSuccess, dev, pool)
  else do
    let dev := { dev with initializePhase := 3 }
    let configurationValue ← m.byte buf 5
    let (err, dev) ← dev.setConfiguration kDefaultControlPipeID configurationValue
    return (err, dev, pool)

/-- `Device::InitializePhase2(buf, len)`. -/
def initializePhase2 (m : Dma) (obs : DefaultObservers) (dev : Device) (pool : Pool) (buf : Addr)
    (len : Int) : Except Fault (Error × Device × Pool) := do
  let type ← m.byte buf 1
  if type ≠ kConfigurationDescriptor then return (.kInvalidDescriptor, dev, pool)
  let fuel := loopFuelOf len
  let (classDriver, dev, pool) ← interfaceLoop m obs fuel fuel ⟨buf, len, 0⟩ dev pool
  selectConfiguration m buf classDriver dev pool

end Mikanos.Xhci.Device
