import Mikanos.Xhci.DeviceManager
import Mikanos.Xhci.EventRing
import Mikanos.Xhci.Port

/-!
# The host controller driver

`Controller` is `usb::xhci::Controller` with the two variables of `xhci.cpp`
that belong to the driver as a whole, `port_config_phase` and
`addressing_port`.  A port is taken from its reset to the configuration of its
device by the events of the controller: each handler tests the phase of the port
concerned, performs one step and, in most cases, pushes the command whose
completion starts the next step.

Only one port at a time may be between its reset and the assignment of an
address.  `addressing_port` names it, and a port that finds it taken waits in
`kWaitingAddressed` until the handler of an Address Device completion hands
over.

What a call finds outside the driver is its argument `Surroundings`.
-/

namespace Mikanos.Xhci

open Mikanos.Usb

/-- `enum class ConfigPhase`. -/
inductive ConfigPhase where
  | kNotConnected
  | kWaitingAddressed
  | kResettingPort
  | kEnablingSlot
  | kAddressingDevice
  | kInitializingDevice
  | kConfiguringEndpoints
  | kConfigured
  deriving DecidableEq, Repr

/-- What one call finds outside the driver: the PORTSC registers, memory written
by the controller and by devices, and which default observers are set. -/
structure Surroundings where
  /-- The `k`-th read of a port's PORTSC register by the call. -/
  portsc : BitVec 8 → Nat → PortSc
  /-- Whether a reset of the port ends, so that `Port::Reset` returns. -/
  resetEnds : BitVec 8 → Bool
  dma : Dma
  observers : Device.DefaultObservers

/-- A command that has been pushed, with its place on the command ring and the
port the call that pushed it was about. -/
structure Command where
  port : BitVec 8
  position : Addr
  trb : Trb
  deriving DecidableEq

/-- `class Controller` with the variables of `xhci.cpp`.  The last three fields
are histories: the values written to PORTSC registers, the number of rings of
doorbell 0 and the commands pushed. -/
structure Controller where
  maxPorts : BitVec 8
  devmgr : DeviceManager
  cr : Ring
  er : EventRing
  pool : Pool
  /-- The scratchpad buffer array, if there is one: its address and elements. -/
  scratchpad : Option (Addr × List Addr)
  portConfigPhase : BitVec 8 → ConfigPhase
  addressingPort : BitVec 8
  portscWrites : List (BitVec 8 × PortSc)
  doorbellRings : Nat
  commands : List Command

namespace Controller

/-- `port_config_phase[port] = phase`. -/
def setPhase (c : Controller) (port : BitVec 8) (phase : ConfigPhase) : Controller :=
  { c with portConfigPhase := Function.update c.portConfigPhase port phase }

/-- A write to the PORTSC register of `port`. -/
def writePortsc (c : Controller) (port : BitVec 8) (value : PortSc) : Controller :=
  { c with portscWrites := c.portscWrites ++ [(port, value)] }

/-- `xhc.CommandRing()->Push(cmd)` and a ring of doorbell 0, on behalf of a port. -/
def pushCommand (c : Controller) (port : BitVec 8) (cmd : Trb) : Except Fault Controller := do
  let (position, cr) ← c.cr.push cmd
  return { c with
    cr := cr
    doorbellRings := c.doorbellRings + 1
    commands := c.commands ++ [⟨port, position, cmd⟩] }

/-- The device in a slot changes. -/
def setDevice (c : Controller) (slotId : BitVec 8) (dev : Device) : Controller :=
  { c with devmgr := c.devmgr.setDevice slotId dev }

/-! ## From the reset of a port to its slot -/

/-- `Port::Reset()`; `read` is the PORTSC value it starts from. -/
def resetPortRegister (env : Surroundings) (c : Controller) (port : BitVec 8) (read : PortSc) :
    Except Fault Controller :=
  if env.resetEnds port then .ok (c.writePortsc port read.reset) else .error .endlessLoop

/-- `ResetPort(xhc, port)`. -/
def resetPort (env : Surroundings) (c : Controller) (port : BitVec 8) :
    Except Fault (Error × Controller) :=
  let isConnected := (env.portsc port 0).currentConnectStatus
  if ¬ isConnected then .ok (.kSuccess, c)
  else if c.addressingPort ≠ 0 then .ok (.kSuccess, c.setPhase port .kWaitingAddressed)
  else
    let portPhase := c.portConfigPhase port
    if portPhase ≠ .kNotConnected ∧ portPhase ≠ .kWaitingAddressed then .ok (.kInvalidPhase, c)
    else do
      let c := { c with addressingPort := port }.setPhase port .kResettingPort
      let c ← resetPortRegister env c port (env.portsc port 1)
      return (.kSuccess, c)

/-- `EnableSlot(xhc, port)`. -/
def enableSlot (env : Surroundings) (c : Controller) (port : BitVec 8) :
    Except Fault (Error × Controller) :=
  let isEnabled := (env.portsc port 0).portEnabledDisabled
  let resetCompleted := (env.portsc port 1).portResetChange
  if isEnabled ∧ resetCompleted then do
    let c := c.writePortsc port (env.portsc port 2).clearPortResetChange
    let c := c.setPhase port .kEnablingSlot
    let c ← c.pushCommand port enableSlotCommandTRB
    return (.kSuccess, c)
  else .ok (.kSuccess, c)

end Controller

/-! ## Addressing a device -/

/-- `InitializeSlotContext(ctx, port)` for a port with this number and speed. -/
def initializeSlotContext (ctx : SlotContext) (portNum : BitVec 8) (speed : BitVec 4) :
    SlotContext :=
  (((ctx.setBits 0 0 (0 : BitVec 20)).setBits 1 16 portNum).setBits 0 27 (1 : BitVec 5)).setBits
    0 20 speed

/-- `DetermineMaxPacketSizeForControlPipe(slot_speed)`. -/
def determineMaxPacketSize (slotSpeed : BitVec 4) : BitVec 16 :=
  if slotSpeed = 4 then 512 else if slotSpeed = 3 then 64 else 8

/-- `InitializeEP0Context(ctx, transfer_ring, max_packet_size)`. -/
def initializeEP0Context (ctx : EndpointContext) (buffer : Addr) (maxPacketSize : BitVec 16) :
    EndpointContext :=
  let ctx := ((ctx.setBits 1 3 (4 : BitVec 3)).setBits 1 16 maxPacketSize).setBits 1 8
    (0 : BitVec 8)
  let ctx := (EndpointContext.setTransferRingBuffer ctx buffer).setBits 2 0 (1 : BitVec 1)
  (((ctx.setBits 0 16 (0 : BitVec 8)).setBits 0 10 (0 : BitVec 5)).setBits 0 8
    (0 : BitVec 2)).setBits 1 1 (3 : BitVec 2)

namespace Device

/-- `AddressDevice` up to the slot context: the slot and endpoint 0 are enabled
in a cleared input control context. -/
def prepareAddress (dev : Device) (portId : BitVec 8) (speed : BitVec 4) : Device :=
  let input := (dev.inputContext.clearControl.enableSlotContext).enableEndpoint 0
  { dev with inputContext :=
      { input with slotContext := initializeSlotContext input.slotContext portId speed } }

/-- The context of the endpoint at subscript `i` changes. -/
def setInputEndpoint (dev : Device) (i : Fin 31) (ctx : EndpointContext) : Device :=
  { dev with inputContext :=
      { dev.inputContext with epContexts := Function.update dev.inputContext.epContexts i ctx } }

/-- `InitializeEP0Context` with the ring `AllocTransferRing` returned, which is
dereferenced. -/
def useControlRing (result : Option Ring × Device × Pool) : Except Fault (Device × Pool) :=
  match result.1 with
  | none => .error .nullDereference
  | some tr =>
      let dev := result.2.1
      .ok (dev.setInputEndpoint 0 (initializeEP0Context (dev.inputContext.epContexts 0) tr.buf
        (determineMaxPacketSize dev.inputContext.slotContext.speed)), result.2.2)

end Device

namespace Controller

/-- `AddressDevice` for the device `dev` in slot `slot_id`. -/
def addressFound (env : Surroundings) (c : Controller) (portId slotId : BitVec 8) (dev : Device) :
    Except Fault (Error × Controller) := do
  let dev := dev.prepareAddress portId (env.portsc portId 0).portSpeed
  let (dev, pool) ← Device.useControlRing (dev.allocTransferRing 0 32 c.pool)
  let c := { c with pool := pool }.setDevice slotId dev
  let (_, devmgr) ← c.devmgr.loadDCBAA slotId
  let c := { c with devmgr := devmgr }.setPhase portId .kAddressingDevice
  let c ← c.pushCommand portId (addressDeviceCommandTRB dev.inputCtxAddr slotId)
  return (.kSuccess, c)

/-- `AddressDevice(xhc, port_id, slot_id)`.  The result of `AllocDevice` is not
looked at. -/
def addressDevice (env : Surroundings) (c : Controller) (portId slotId : BitVec 8) :
    Except Fault (Error × Controller) := do
  let (_, devmgr, pool) ← c.devmgr.allocDevice slotId c.pool
  let c := { c with devmgr := devmgr, pool := pool }
  match c.devmgr.findBySlot slotId with
  | none => return (.kInvalidSlotID, c)
  | some dev => addressFound env c portId slotId dev

/-- `InitializeDevice(xhc, port_id, slot_id)`.  The result of `StartInitialize`
is not looked at. -/
def initializeDevice (c : Controller) (portId slotId : BitVec 8) :
    Except Fault (Error × Controller) :=
  match c.devmgr.findBySlot slotId with
  | none => .ok (.kInvalidSlotID, c)
  | some dev => do
      let c := c.setPhase portId .kInitializingDevice
      let (_, dev) ← dev.startInitialize
      return (.kSuccess, c.setDevice slotId dev)

/-- `CompleteConfiguration(xhc, port_id, slot_id)`.  The result of
`OnEndpointsConfigured` is not looked at. -/
def completeConfiguration (c : Controller) (portId slotId : BitVec 8) :
    Except Fault (Error × Controller) :=
  match c.devmgr.findBySlot slotId with
  | none => .ok (.kInvalidSlotID, c)
  | some dev => do
      let (_, dev) ← dev.onEndpointsConfigured
      return (.kSuccess, (c.setDevice slotId dev).setPhase portId .kConfigured)

end Controller

/-! ## Configuring endpoints -/

/-- `MostSignificantBit(value)`. -/
def mostSignificantBit (value : Nat) : Int := if value = 0 then -1 else Nat.log2 value

/-- The lambda `convert_interval` of a port speed: 1 and 2 are full and low
speed. -/
def convertInterval (portSpeed : BitVec 4) (type : EndpointType) (interval : Nat) : Int :=
  if portSpeed = 1 ∨ portSpeed = 2 then
    if type = .kIsochronous then interval + 2 else mostSignificantBit interval + 3
  else interval - 1

/-- The `ep_type` field of an endpoint context. -/
def epTypeBits (type : EndpointType) (isIn : Bool) : BitVec 3 :=
  match type with
  | .kControl => 4
  | .kIsochronous => if isIn then 5 else 1
  | .kBulk => if isIn then 6 else 2
  | .kInterrupt => if isIn then 7 else 3

/-- The fields `ConfigureEndpoints` writes into an endpoint context. -/
def configureEndpointContext (ctx : EndpointContext) (conf : EndpointConfig)
    (portSpeed : BitVec 4) (buffer : Addr) : EndpointContext :=
  let ctx := (ctx.setBits 1 3 (epTypeBits conf.epType conf.epId.isIn)).setBits 1 16
    (BitVec.ofNat 16 conf.maxPacketSize)
  let ctx := (ctx.setBits 0 16 (BitVec.ofInt 8 (convertInterval portSpeed conf.epType
    conf.interval))).setBits 4 0 (1 : BitVec 16)
  let ctx := (EndpointContext.setTransferRingBuffer ctx buffer).setBits 2 0 (1 : BitVec 1)
  ((ctx.setBits 0 10 (0 : BitVec 5)).setBits 0 8 (0 : BitVec 2)).setBits 1 1 (3 : BitVec 2)

namespace Device

/-- `ConfigureEndpoints` up to the speed of the port: the input context starts as
a copy of the device's slot context. -/
def prepareEndpoints (dev : Device) : Device :=
  let input := dev.inputContext.clearControl
  let input := { input with slotContext := dev.slotContext }.enableSlotContext
  { dev with inputContext :=
      { input with slotContext := input.slotContext.setBits 0 27 (31 : BitVec 5) } }

/-- The rest of an iteration of the endpoint loop, with the ring
`AllocTransferRing` returned, which is dereferenced. -/
def useEndpointRing (i : Fin 31) (conf : EndpointConfig) (portSpeed : BitVec 4)
    (result : Option Ring × Device × Pool) : Except Fault (Device × Pool) :=
  match result.1 with
  | none => .error .nullDereference
  | some tr =>
      let dev := result.2.1
      .ok (dev.setInputEndpoint i (configureEndpointContext (dev.inputContext.epContexts i) conf
        portSpeed tr.buf), result.2.2)

/-- `EnableEndpoint(dci)`. -/
def enableInputEndpoint (dev : Device) (i : Fin 31) : Device :=
  { dev with inputContext := dev.inputContext.enableEndpoint i }

/-- The loop of `ConfigureEndpoints` over the configured endpoints. -/
def configureEndpointLoop (portSpeed : BitVec 4) (dev : Device) (pool : Pool) :
    Nat → Except Fault (Device × Pool)
  | 0 => .ok (dev, pool)
  | n + 1 => do
      let (dev, pool) ← configureEndpointLoop portSpeed dev pool n
      if h : n < 16 then do
        let conf := dev.epConfigs ⟨n, h⟩
        let i ← dciIndex conf.epId.address
        useEndpointRing i conf portSpeed
          ((dev.enableInputEndpoint i).allocTransferRing i 32 pool)
      else .error .outOfBounds

end Device

namespace Controller

/-- `ConfigureEndpoints(xhc, dev)` for the device `dev` in slot `slotId`. -/
def configureEndpoints (env : Surroundings) (c : Controller) (slotId : BitVec 8) (dev : Device) :
    Except Fault (Error × Controller) :=
  let portId := dev.slotContext.rootHubPortNum
  let dev := dev.prepareEndpoints
  let portSpeed := (env.portsc portId 0).portSpeed
  if portSpeed = 0 ∨ 5 < portSpeed.toNat then
    .ok (.kUnknownXHCISpeedID, c.setDevice slotId dev)
  else do
    let (dev, pool) ← Device.configureEndpointLoop portSpeed dev c.pool dev.numEpConfigs
    let c := ({ c with pool := pool }.setDevice slotId dev).setPhase portId .kConfiguringEndpoints
    let c ← c.pushCommand portId (configureEndpointCommandTRB dev.inputCtxAddr dev.slotId)
    return (.kSuccess, c)

/-! ## Events -/

/-- `PortStatusChangeEventTRB::bits.port_id`. -/
def eventPortId (trb : Trb) : BitVec 8 := trb.bits 0 24 8

/-- `OnEvent(xhc, trb)` for a Port Status Change Event. -/
def onPortStatusChangeEvent (env : Surroundings) (trb : Trb) (c : Controller) :
    Except Fault (Error × Controller) :=
  let portId := eventPortId trb
  match c.portConfigPhase portId with
  | .kNotConnected => resetPort env c portId
  | .kResettingPort => enableSlot env c portId
  | _ => .ok (.kInvalidPhase, c)

/-- `OnEvent(xhc, trb)` for a Transfer Event, after the device's slot has seen
it. -/
def afterTransferEvent (env : Surroundings) (c : Controller) (slotId : BitVec 8) (dev : Device) :
    Except Fault (Error × Controller) :=
  let portId := dev.slotContext.rootHubPortNum
  if dev.isInitialized ∧ c.portConfigPhase portId = .kInitializingDevice then
    configureEndpoints env c slotId dev
  else .ok (.kSuccess, c)

/-- `OnEvent(xhc, trb)` for a Transfer Event. -/
def onTransferEvent (env : Surroundings) (trb : Trb) (c : Controller) :
    Except Fault (Error × Controller) :=
  let slotId := Device.eventSlotId trb
  match c.devmgr.findBySlot slotId with
  | none => .ok (.kInvalidSlotID, c)
  | some dev => do
      let (err, dev, pool) ← dev.onTransferEventReceived env.dma env.observers c.pool trb
      let c := { c with pool := pool }.setDevice slotId dev
      if err ≠ .kSuccess then return (err, c) else afterTransferEvent env c slotId dev

/-- The TRB at an address: on the command ring, or elsewhere. -/
def trbAt (env : Surroundings) (c : Controller) (p : Addr) : Trb :=
  match c.cr.slotAt p with
  | some i => c.cr.mem i
  | none => env.dma.trb p

/-- `CommandCompletionEventTRB::bits.slot_id`. -/
def eventSlotId (trb : Trb) : BitVec 8 := trb.bits 3 24 8

/-- The first port in `kWaitingAddressed`, in the order of the hand-over loop. -/
def firstWaiting (c : Controller) : Option (BitVec 8) :=
  ((List.range 256).map (BitVec.ofNat 8)).find? fun i =>
    c.portConfigPhase i = .kWaitingAddressed

/-- The hand-over loop: the first waiting port is reset, and the loop ends there
whatever came of it. -/
def handOver (env : Surroundings) (c : Controller) : Except Fault (Error × Controller) :=
  match c.firstWaiting with
  | none => .ok (.kSuccess, c)
  | some port => resetPort env c port

/-- `OnEvent` for the completion of an Enable Slot command. -/
def onEnableSlotCompleted (env : Surroundings) (slotId : BitVec 8) (c : Controller) :
    Except Fault (Error × Controller) :=
  if c.portConfigPhase c.addressingPort ≠ .kEnablingSlot then .ok (.kInvalidPhase, c)
  else addressDevice env c c.addressingPort slotId

/-- `OnEvent` for the completion of an Address Device command. -/
def onAddressDeviceCompleted (env : Surroundings) (slotId : BitVec 8) (c : Controller) :
    Except Fault (Error × Controller) :=
  match c.devmgr.findBySlot slotId with
  | none => .ok (.kInvalidSlotID, c)
  | some dev =>
      let portId := dev.slotContext.rootHubPortNum
      if portId ≠ c.addressingPort then .ok (.kInvalidPhase, c)
      else if c.portConfigPhase portId ≠ .kAddressingDevice then .ok (.kInvalidPhase, c)
      else do
        let (err, c) ← handOver env { c with addressingPort := 0 }
        if err ≠ .kSuccess then return (err, c) else initializeDevice c portId slotId

/-- `OnEvent` for the completion of a Configure Endpoint command. -/
def onConfigureEndpointCompleted (slotId : BitVec 8) (c : Controller) :
    Except Fault (Error × Controller) :=
  match c.devmgr.findBySlot slotId with
  | none => .ok (.kInvalidSlotID, c)
  | some dev =>
      let portId := dev.slotContext.rootHubPortNum
      if c.portConfigPhase portId ≠ .kConfiguringEndpoints then .ok (.kInvalidPhase, c)
      else completeConfiguration c portId slotId

/-- `OnEvent(xhc, trb)` for a Command Completion Event. -/
def onCommandCompletionEvent (env : Surroundings) (trb : Trb) (c : Controller) :
    Except Fault (Error × Controller) :=
  let issuerType := (trbAt env c trb.pointer60).trbType
  let slotId := eventSlotId trb
  if issuerType = enableSlotCommandType then onEnableSlotCompleted env slotId c
  else if issuerType = addressDeviceCommandType then onAddressDeviceCompleted env slotId c
  else if issuerType = configureEndpointCommandType then onConfigureEndpointCompleted slotId c
  else .ok (.kInvalidPhase, c)

/-- The three `OnEvent` functions behind `ProcessEvent`. -/
def onEvent (env : Surroundings) : Trb → Controller → Except Fault (Error × Controller) :=
  EventRing.dispatch (onTransferEvent env) (onPortStatusChangeEvent env)
    (onCommandCompletionEvent env)

/-- `ProcessEvent(xhc)`. -/
def processEvent (env : Surroundings) (c : Controller) : Except Fault (Error × Controller) := do
  let (err, er, c) ← c.er.processEvent (onEvent env) c
  return (err, { c with er := er })

/-- `ConfigurePort(xhc, port)`. -/
def configurePort (env : Surroundings) (c : Controller) (port : BitVec 8) :
    Except Fault (Error × Controller) :=
  if c.portConfigPhase port = .kNotConnected then resetPort env c port else .ok (.kSuccess, c)

end Controller

end Mikanos.Xhci
