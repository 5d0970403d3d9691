import Mikanos.Usb.Descriptor

/-!
# Initialization and completions of a device

The state machine of `usb::Device`: a device that has an address is asked for
its device descriptor, then for a configuration descriptor, gets a
configuration and its class drivers learn their endpoints.  Every step is the
completion of the control transfer the step before it has issued.

`onTransferEventReceived` finds out what a Transfer Event completes, which is
`Completion`, and passes it on.
-/

namespace Mikanos.Xhci.Device

open Mikanos.Usb

/-- `Device::StartInitialize()`. -/
def startInitialize (dev : Device) : Except Fault (Error × Device) :=
  let dev := { dev with isInitialized := false, initializePhase := 1 }
  dev.getDescriptor kDefaultControlPipeID kDeviceDescriptor 0 dev.buffer 256

/-- `Device::InitializePhase1(buf, len)`. -/
def initializePhase1 (m : Dma) (dev : Device) (buf : Addr) : Except Fault (Error × Device) := do
  let numConfigurations ← m.byte buf 17
  let dev := { dev with
    numConfigurations := numConfigurations
    configIndex := 0
    initializePhase := 2 }
  dev.getDescriptor kDefaultControlPipeID kConfigurationDescriptor dev.configIndex dev.buffer 256

/-- The loop of `InitializePhase3` over the configured endpoints.  The result
of `SetEndpoint` is not looked at. -/
def setEndpoints (dev : Device) : Nat → Except Fault Device
  | 0 => .ok dev
  | n + 1 => do
      let dev ← dev.setEndpoints n
      if h : n < 16 then
        let conf := dev.epConfigs ⟨n, h⟩
        if hnum : 0 ≤ conf.epId.number ∧ conf.epId.number < 16 then do
          let (_, dev) ← dev.driverSetEndpoint
            (dev.classDrivers ⟨conf.epId.number.toNat, by omega⟩) conf
          return dev
        else .error .outOfBounds
      else .error .outOfBounds

/-- `Device::InitializePhase3(config_value)`, which does not use its argument. -/
def initializePhase3 (dev : Device) : Except Fault (Error × Device) := do
  let dev ← dev.setEndpoints dev.numEpConfigs
  return (.kSuccess, { dev with initializePhase := 4, isInitialized := true })

/-- The loop of `OnEndpointsConfigured` over `class_drivers_`, from index `i`. -/
def onEndpointsConfiguredFrom (dev : Device) : Nat → Nat → Except Fault (Error × Device)
  | 0, _ => .ok (.kSuccess, dev)
  | left + 1, i =>
      if h : i < 16 then
        let classDriver := dev.classDrivers ⟨i, h⟩
        if classDriver ≠ nullptr then do
          let (err, dev) ← dev.driverOnEndpointsConfigured classDriver
          if err ≠ .kSuccess then return (err, dev)
          else dev.onEndpointsConfiguredFrom left (i + 1)
        else dev.onEndpointsConfiguredFrom left (i + 1)
      else .ok (.kSuccess, dev)

/-- `Device::OnEndpointsConfigured()`. -/
def onEndpointsConfigured (dev : Device) : Except Fault (Error × Device) :=
  dev.onEndpointsConfiguredFrom 16 0

/-- `DescriptorDynamicCast<T>(buf)` after the test of the request; the second
is only made when the first holds. -/
def isDescriptor (m : Dma) (isGetDescriptor : Bool) (buf : Addr) (kType : BitVec 8) :
    Except Fault Bool :=
  if isGetDescriptor then do
    let type ← m.byte buf 1
    return type == kType
  else .ok false

/-- The part of `OnControlCompleted` for a device that is not initialized. -/
def continueInitialize (m : Dma) (obs : DefaultObservers) (dev : Device) (pool : Pool)
    (setupData : SetupData) (buf : Addr) (len : Int) : Except Fault (Error × Device × Pool) := do
  let isGetDescriptor := setupData.request == kGetDescriptor
  if dev.initializePhase = 1 then do
    if ← isDescriptor m isGetDescriptor buf kDeviceDescriptor then do
      let (err, dev) ← initializePhase1 m dev buf
      return (err, dev, pool)
    else return (.kInvalidPhase, dev, pool)
  else if dev.initializePhase = 2 then do
    if ← isDescriptor m isGetDescriptor buf kConfigurationDescriptor then
      initializePhase2 m obs dev pool buf len
    else return (.kInvalidPhase, dev, pool)
  else if dev.initializePhase = 3 then
    if setupData.request = kSetConfiguration then do
      let (err, dev) ← dev.initializePhase3
      return (err, dev, pool)
    else return (.kInvalidPhase, dev, pool)
  else return (.kNotImplemented, dev, pool)

/-- `Device::OnControlCompleted(ep_id, setup_data, buf, len)`. -/
def onControlCompleted (m : Dma) (obs : DefaultObservers) (dev : Device) (pool : Pool)
    (setupData : SetupData) (buf : Addr) (len : Int) : Except Fault (Error × Device × Pool) :=
  if dev.isInitialized then
    match dev.eventWaiters.get setupData with
    | some w => do
        let (err, dev) ← dev.driverOnControlCompleted w
        return (err, dev, pool)
    | none => .ok (.kNoWaiter, dev, pool)
  else continueInitialize m obs dev pool setupData buf len

/-- `Device::OnInterruptCompleted(ep_id, buf, len)`. -/
def onInterruptCompleted (m : Dma) (dev : Device) (epId : EndpointID) (buf : Addr) (len : Int) :
    Except Fault (Error × Device) :=
  if h : 0 ≤ epId.number ∧ epId.number < 16 then
    let w := dev.classDrivers ⟨epId.number.toNat, by omega⟩
    if w ≠ nullptr then driverOnInterruptCompleted m dev w epId buf len
    else .ok (.kNoWaiter, dev)
  else .error .outOfBounds

/-! ## Transfer Events -/

/-- The TRB at an address: on a ring of the device, or elsewhere. -/
def trbAt (m : Dma) (dev : Device) (p : Addr) : Trb :=
  match (List.finRange 31).findSome? fun i =>
      (dev.transferRings i).bind fun tr => (tr.slotAt p).map tr.mem with
  | some t => t
  | none => m.trb p

/-- `TransferEventTRB` fields. -/
def eventTransferLength (t : Trb) : BitVec 24 := t.bits 2 0 24
def eventCompletionCode (t : Trb) : BitVec 8 := t.bits 2 24 8
def eventEndpointId (t : Trb) : BitVec 5 := t.bits 3 16 5
def eventSlotId (t : Trb) : BitVec 8 := t.bits 3 24 8

/-- `trb_transfer_length` of Normal and Data Stage TRBs. -/
def transferLength (t : Trb) : BitVec 17 := t.bits 2 0 17

/-- `normal_trb->bits.trb_transfer_length - residual_length` and the same for a
Data Stage TRB: an `int` minus a `uint32_t`, converted back to `int`. -/
def transferred (length : BitVec 17) (residual : BitVec 24) : Int :=
  (length.setWidth 32 - residual.setWidth 32).toInt

/-- The request a Setup Stage TRB carries. -/
def setupDataOf (t : Trb) : SetupData where
  requestType := t.bits 0 0 8
  request := t.bits 0 8 8
  value := t.bits 0 16 16
  index := t.bits 1 0 16
  length := t.bits 1 16 16

/-- What a Transfer Event turns out to complete. -/
inductive Completion where
  /-- Nothing: `OnTransferEventReceived` returns this error. -/
  | failed (err : Error)
  /-- An interrupt transfer, `OnInterruptCompleted` is called. -/
  | interrupt (epId : EndpointID) (buf : Addr) (len : Int)
  /-- A control transfer, `OnControlCompleted` is called. -/
  | control (setupData : SetupData) (buf : Addr) (len : Int)
  deriving DecidableEq

/-- `OnTransferEventReceived` after the Setup Stage TRB was looked up. -/
def decodeControl (m : Dma) (dev : Device) (issuer : Trb) (setupTrb : Addr)
    (residual : BitVec 24) : Completion :=
  let setupData := setupDataOf (trbAt m dev setupTrb)
  if issuer.trbType = dataStageType then
    .control setupData issuer.parameter (transferred (transferLength issuer) residual)
  else if issuer.trbType = statusStageType then .control setupData nullptr 0
  else .failed .kNotImplemented

/-- `OnTransferEventReceived` up to the call of a completion function. -/
def decodeTransferEvent (m : Dma) (dev : Device) (trb : Trb) : Completion × Device :=
  if eventCompletionCode trb ≠ 1 ∧ eventCompletionCode trb ≠ 13 then
    (.failed .kTransferFailed, dev)
  else
    let issuerAddr := trb.parameter
    let issuer := trbAt m dev issuerAddr
    if issuer.trbType = normalType then
      (.interrupt ⟨(eventEndpointId trb).toNat⟩ issuer.parameter
        (transferred (transferLength issuer) (eventTransferLength trb)), dev)
    else
      match dev.setupStageMap.get issuerAddr with
      | none => (.failed .kNoCorrespondingSetupStage, dev)
      | some setupTrb =>
          let dev := { dev with setupStageMap := dev.setupStageMap.delete issuerAddr }
          (decodeControl m dev issuer setupTrb (eventTransferLength trb), dev)

/-- The completion functions. -/
def complete (m : Dma) (obs : DefaultObservers) (dev : Device) (pool : Pool) :
    Completion → Except Fault (Error × Device × Pool)
  | .failed err => .ok (err, dev, pool)
  | .interrupt epId buf len => do
      let (err, dev) ← onInterruptCompleted m dev epId buf len
      return (err, dev, pool)
  | .control setupData buf len => onControlCompleted m obs dev pool setupData buf len

/-- `Device::OnTransferEventReceived(trb)`. -/
def onTransferEventReceived (m : Dma) (obs : DefaultObservers) (dev : Device) (pool : Pool)
    (trb : Trb) : Except Fault (Error × Device × Pool) :=
  let decoded := decodeTransferEvent m dev trb
  complete m obs decoded.2 pool decoded.1

end Mikanos.Xhci.Device
