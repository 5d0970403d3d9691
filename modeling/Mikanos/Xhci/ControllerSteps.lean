import Mikanos.Usb.DeviceFrame
import Mikanos.Xhci.Controller

/-!
# What the event handlers can do

One lemma per handler says everything a call that returns can have done, guards
included, as an explicit update of the state before.  The invariants of the
driver are proved from these lemmas; no other proof unfolds a handler.

A handler changes at most one device object.  `SameObject` says what stays of
it: its address, its slot and its device context, which only the controller
writes.
-/

namespace Mikanos.Xhci

open Mikanos.Usb

namespace Device

/-- The same object in the same slot, with the same device context. -/
structure SameObject (dev dev' : Device) : Prop where
  self : dev'.self = dev.self
  slotId : dev'.slotId = dev.slotId
  slotContext : dev'.slotContext = dev.slotContext

theorem SameObject.refl (dev : Device) : SameObject dev dev := ⟨rfl, rfl, rfl⟩

theorem SameObject.trans {a b c : Device} (hab : SameObject a b) (hbc : SameObject b c) :
    SameObject a c :=
  ⟨hbc.self.trans hab.self, hbc.slotId.trans hab.slotId, hbc.slotContext.trans hab.slotContext⟩

/-- A device that stays in its slot, with its contexts, is the same object. -/
theorem KeepsSlot.sameObject {dev dev' : Device} (h : KeepsSlot dev dev') : SameObject dev dev' :=
  ⟨h.self, h.slotId, h.slotContext⟩

/-- A new transfer ring leaves the object and its input context alone. -/
theorem allocTransferRing_keepsSlot (dev : Device) (i : Fin 31) (n : Nat) (pool : Pool) :
    KeepsSlot dev (dev.allocTransferRing i n pool).2.1 := by
  unfold allocTransferRing
  generalize placeRing n (pool.allocArray 32 1 64 4096) = placed
  exact ⟨rfl, rfl, rfl, rfl⟩

/-- Setting an endpoint context changes the input context, and nothing else of the device. -/
theorem setInputEndpoint_fields (dev : Device) (i : Fin 31) (ctx : EndpointContext) :
    ∃ inputContext, dev.setInputEndpoint i ctx = { dev with inputContext := inputContext } :=
  ⟨_, rfl⟩

/-- The control ring is entered in the input context of the device. -/
theorem useControlRing_fields {result : Option Ring × Device × Pool} {dev' : Device}
    {pool' : Pool} (h : useControlRing result = .ok (dev', pool')) :
    ∃ inputContext, dev' = { result.2.1 with inputContext := inputContext } := by
  unfold useControlRing at h
  split at h
  · cases h
  · cases h
    exact setInputEndpoint_fields _ _ _

/-- So is the ring of an endpoint, in one round of the loop of `ConfigureEndpoints`. -/
theorem useEndpointRing_fields {i : Fin 31} {conf : EndpointConfig} {portSpeed : BitVec 4}
    {result : Option Ring × Device × Pool} {dev' : Device} {pool' : Pool}
    (h : useEndpointRing i conf portSpeed result = .ok (dev', pool')) :
    ∃ inputContext, dev' = { result.2.1 with inputContext := inputContext } := by
  unfold useEndpointRing at h
  split at h
  · cases h
  · cases h
    exact setInputEndpoint_fields _ _ _

/-- `InitializeEP0Context` changes the context of endpoint 0 only. -/
theorem useControlRing_cases {result : Option Ring × Device × Pool} {dev' : Device} {pool' : Pool}
    (h : useControlRing result = .ok (dev', pool')) :
    SameObject result.2.1 dev' ∧
      dev'.inputContext.slotContext = result.2.1.inputContext.slotContext := by
  unfold useControlRing at h
  split at h
  · cases h
  · cases h
    exact ⟨⟨rfl, rfl, rfl⟩, rfl⟩

/-- One more endpoint context has been filled in. -/
theorem useEndpointRing_cases {i : Fin 31} {conf : EndpointConfig} {portSpeed : BitVec 4}
    {result : Option Ring × Device × Pool} {dev' : Device} {pool' : Pool}
    (h : useEndpointRing i conf portSpeed result = .ok (dev', pool')) :
    SameObject result.2.1 dev' ∧
      dev'.inputContext.slotContext = result.2.1.inputContext.slotContext := by
  unfold useEndpointRing at h
  split at h
  · cases h
  · cases h
    exact ⟨⟨rfl, rfl, rfl⟩, rfl⟩

/-- One round more of the endpoint loop: the rounds before it have returned, and the last one
has used the ring of its endpoint. -/
theorem configureEndpointLoop_succ {portSpeed : BitVec 4} {dev dev' : Device} {pool pool' : Pool}
    {n : Nat} (h : configureEndpointLoop portSpeed dev pool (n + 1) = .ok (dev', pool')) :
    ∃ (dev₁ : Device) (pool₁ : Pool) (hn : n < 16) (i : Fin 31),
      configureEndpointLoop portSpeed dev pool n = .ok (dev₁, pool₁) ∧
      dciIndex (dev₁.epConfigs ⟨n, hn⟩).epId.address = .ok i ∧
      useEndpointRing i (dev₁.epConfigs ⟨n, hn⟩) portSpeed
        ((dev₁.enableInputEndpoint i).allocTransferRing i 32 pool₁) = .ok (dev', pool') := by
  unfold configureEndpointLoop at h
  obtain ⟨⟨dev₁, pool₁⟩, hrest, h⟩ := bind_eq_ok.mp h
  dsimp only at h
  split at h
  · rename_i hn
    obtain ⟨i, hi, h⟩ := bind_eq_ok.mp h
    exact ⟨dev₁, pool₁, hn, i, hrest, hi, h⟩
  · cases h

/-- The endpoint loop keeps the object and the slot context of its input context, by induction
on the rounds. -/
theorem configureEndpointLoop_sameObject {portSpeed : BitVec 4} {dev : Device} {pool : Pool}
    (n : Nat) : ∀ {dev' : Device} {pool' : Pool},
      configureEndpointLoop portSpeed dev pool n = .ok (dev', pool') →
      SameObject dev dev' ∧ dev'.inputContext.slotContext = dev.inputContext.slotContext := by
  induction n with
  | zero =>
      intro dev' pool' h
      cases h
      exact ⟨.refl dev, rfl⟩
  | succ n ih =>
      intro dev' pool' h
      obtain ⟨dev₁, pool₁, hn, i, hrest, -, h⟩ := configureEndpointLoop_succ h
      have hkeeps := allocTransferRing_keepsSlot (dev₁.enableInputEndpoint i) i 32 pool₁
      generalize (dev₁.enableInputEndpoint i).allocTransferRing i 32 pool₁ = result at h hkeeps
      have henable : SameObject dev₁ (dev₁.enableInputEndpoint i) := ⟨rfl, rfl, rfl⟩
      obtain ⟨hsame, hinput⟩ := ih hrest
      obtain ⟨huse, huseInput⟩ := useEndpointRing_cases h
      refine ⟨hsame.trans (henable.trans (hkeeps.sameObject.trans huse)), ?_⟩
      rw [huseInput, hkeeps.inputContext, ← hinput]
      rfl

end Device

/-! ## Slots -/

namespace DeviceManager

/-- A device that is found is in its slot. -/
theorem findBySlot_eq_some {d : DeviceManager} {slotId : BitVec 8} {dev : Device}
    (h : d.findBySlot slotId = some dev) :
    slotId.toNat ≤ d.maxSlots ∧ d.devices slotId.toNat = some dev := by
  unfold findBySlot at h
  split at h
  · cases h
  · exact ⟨by omega, h⟩

/-- The device in a slot is the one that was put there. -/
@[simp] theorem devices_setDevice_self (d : DeviceManager) (slotId : BitVec 8) (dev : Device) :
    (d.setDevice slotId dev).devices slotId.toNat = some dev := by
  simp [setDevice]

/-- The number of slots does not change. -/
@[simp] theorem maxSlots_setDevice (d : DeviceManager) (slotId : BitVec 8) (dev : Device) :
    (d.setDevice slotId dev).maxSlots = d.maxSlots := rfl

/-- After a device changed, a slot holds that device or what it held before. -/
theorem devices_setDevice_cases {d : DeviceManager} {slotId : BitVec 8} {dev dev' : Device}
    {i : Nat} (h : (d.setDevice slotId dev).devices i = some dev') :
    (i = slotId.toNat ∧ dev' = dev) ∨ (i ≠ slotId.toNat ∧ d.devices i = some dev') := by
  by_cases hi : i = slotId.toNat
  · subst hi
    rw [devices_setDevice_self] at h
    exact Or.inl ⟨rfl, (Option.some.inj h).symm⟩
  · exact Or.inr ⟨hi, (Function.update_of_ne hi _ _).symm.trans h⟩

/-- `FindBySlot` looks into the array for the slots that there are. -/
theorem findBySlot_of_le {d : DeviceManager} {slotId : BitVec 8} (h : slotId.toNat ≤ d.maxSlots) :
    d.findBySlot slotId = d.devices slotId.toNat := by
  unfold findBySlot
  rw [if_neg (by omega)]

/-- A device that was put into its slot is found there. -/
theorem findBySlot_setDevice {d : DeviceManager} {slotId : BitVec 8} (dev : Device)
    (hslot : slotId.toNat ≤ d.maxSlots) :
    (d.setDevice slotId dev).findBySlot slotId = some dev :=
  (findBySlot_of_le (by exact hslot)).trans (devices_setDevice_self _ _ _)

/-- The other slots do not notice. -/
theorem findBySlot_setDevice_of_ne (d : DeviceManager) {slotId slotId' : BitVec 8} (dev : Device)
    (h : slotId ≠ slotId') : (d.setDevice slotId' dev).findBySlot slotId = d.findBySlot slotId := by
  have hne : slotId.toNat ≠ slotId'.toNat := fun heq => h (BitVec.eq_of_toNat_eq heq)
  unfold findBySlot setDevice
  dsimp only
  rw [Function.update_of_ne hne]

/-- `AllocDevice` has constructed the device in a block that is there; at address null the
constructor has no defined result. -/
theorem placeDevice_cases {d d' : DeviceManager} {slotId : BitVec 8} {block : Addr × Pool}
    {err : Error} {pool' : Pool} (h : d.placeDevice slotId block = .ok (err, d', pool')) :
    block.1 ≠ nullptr ∧ d' = d.setDevice slotId (Device.new block.1 slotId) := by
  unfold placeDevice at h
  split at h
  · cases h
  · rename_i hblock
    cases h
    exact ⟨hblock, rfl⟩

/-- **`AllocDevice`** refuses a slot that does not exist or is in use, and
otherwise constructs a device there. -/
theorem allocDevice_cases {d d' : DeviceManager} {slotId : BitVec 8} {pool pool' : Pool}
    {err : Error} (h : d.allocDevice slotId pool = .ok (err, d', pool')) :
    (d.maxSlots < slotId.toNat ∧ d' = d) ∨
    (slotId.toNat ≤ d.maxSlots ∧ d' = d ∧ ∃ dev, d.devices slotId.toNat = some dev) ∨
    (slotId.toNat ≤ d.maxSlots ∧ d.devices slotId.toNat = none ∧
      ∃ self, self ≠ nullptr ∧ d' = d.setDevice slotId (Device.new self slotId)) := by
  unfold allocDevice at h
  split at h
  · rename_i hslot
    cases h
    exact Or.inl ⟨hslot, rfl⟩
  · rename_i hslot
    have hle : slotId.toNat ≤ d.maxSlots := Nat.le_of_not_lt hslot
    split at h
    · rename_i hused
      cases h
      exact Or.inr (Or.inl ⟨hle, rfl, Option.isSome_iff_exists.mp hused⟩)
    · rename_i hfree
      generalize pool.allocArray Device.sizeOf 1 64 4096 = block at h
      obtain ⟨hblock, rfl⟩ := placeDevice_cases h
      exact Or.inr (Or.inr ⟨hle, by simpa using hfree, block.1, hblock, rfl⟩)

/-- A device is put in its slot and its context into the DCBAA. -/
def loadDevice (d : DeviceManager) (slotId : BitVec 8) (dev : Device) : DeviceManager :=
  { d.setDevice slotId dev with
    deviceContextPointers := Function.update d.deviceContextPointers slotId.toNat dev.ctxAddr }

/-- `LoadDCBAA` sets the pointer of the slot to the context of the device there. -/
theorem loadDCBAA_setDevice {d d' : DeviceManager} {slotId : BitVec 8} {dev : Device} {err : Error}
    (hslot : slotId.toNat ≤ d.maxSlots)
    (h : (d.setDevice slotId dev).loadDCBAA slotId = .ok (err, d')) :
    d' = d.loadDevice slotId dev := by
  unfold loadDCBAA at h
  rw [maxSlots_setDevice, if_neg (by omega), devices_setDevice_self] at h
  cases h
  rfl

/-- The device last put in a slot counts. -/
theorem loadDevice_setDevice (d : DeviceManager) (slotId : BitVec 8) (dev dev' : Device) :
    (d.setDevice slotId dev).loadDevice slotId dev' = d.loadDevice slotId dev' := by
  unfold loadDevice setDevice
  rw [Function.update_idem]

end DeviceManager

/-- A new device names no port. -/
theorem rootHubPortNum_zero : SlotContext.rootHubPortNum Dwords.zero = 0 := by decide

/-- The port a slot context is initialized for can be read back. -/
theorem rootHubPortNum_initializeSlotContext (ctx : SlotContext) (portNum : BitVec 8)
    (speed : BitVec 4) :
    (initializeSlotContext ctx portNum speed).rootHubPortNum = portNum := by
  unfold initializeSlotContext SlotContext.rootHubPortNum
  rw [Dwords.bits_setBits_of_disjoint _ _ _ _ _ _ (by decide),
    Dwords.bits_setBits_of_disjoint _ _ _ _ _ _ (by decide),
    Dwords.bits_setBits_same _ _ _ _ (by decide)]

/-- The root hub port number of the input context. -/
def Device.inputPort (dev : Device) : BitVec 8 := dev.inputContext.slotContext.rootHubPortNum

/-- The port in the input context stays. -/
theorem Device.KeepsSlot.inputPort {dev dev' : Device} (h : Device.KeepsSlot dev dev') :
    dev'.inputPort = dev.inputPort := by
  rw [Device.inputPort, h.inputContext, Device.inputPort]

/-- The input context of `ConfigureEndpoints` starts as a copy of the device's slot
context. -/
theorem Device.inputPort_prepareEndpoints (dev : Device) :
    dev.prepareEndpoints.inputPort = dev.slotContext.rootHubPortNum :=
  Dwords.bits_setBits_of_disjoint _ _ _ _ _ _ (by decide)

namespace Controller

/-! ## Resetting a port -/

/-- The update of a push on the command ring. -/
def afterPush (c : Controller) (port : BitVec 8) (cmd : Trb) (position : Addr) (cr : Ring) :
    Controller :=
  { c with
    cr := cr
    doorbellRings := c.doorbellRings + 1
    commands := c.commands ++ [⟨port, position, cmd⟩] }

/-- **A command** is a `Push` to the command ring and an entry in the history. -/
theorem pushCommand_cases {c c' : Controller} {port : BitVec 8} {cmd : Trb}
    (h : c.pushCommand port cmd = .ok c') :
    ∃ position cr, c.cr.push cmd = .ok (position, cr) ∧ c' = c.afterPush port cmd position cr := by
  unfold pushCommand at h
  obtain ⟨⟨position, cr⟩, hpush, h⟩ := bind_eq_ok.mp h
  cases h
  exact ⟨position, cr, hpush, rfl⟩

/-- The port `port` has been taken and reset. -/
def afterReset (env : Surroundings) (c : Controller) (port : BitVec 8) : Controller :=
  ({ c with addressingPort := port }.setPhase port .kResettingPort).writePortsc port
    (env.portsc port 1).reset

/-- **`ResetPort`** does nothing at a port without a device, lets the port wait while another is
being addressed, or starts to reset it. -/
theorem resetPort_cases {env : Surroundings} {c c' : Controller} {port : BitVec 8} {err : Error}
    (h : resetPort env c port = .ok (err, c')) :
    ((env.portsc port 0).currentConnectStatus = false ∧ err = .kSuccess ∧ c' = c) ∨
    ((env.portsc port 0).currentConnectStatus = true ∧ c.addressingPort ≠ 0 ∧ err = .kSuccess ∧
      c' = c.setPhase port .kWaitingAddressed) ∨
    ((env.portsc port 0).currentConnectStatus = true ∧ c.addressingPort = 0 ∧
      c.portConfigPhase port ≠ .kNotConnected ∧ c.portConfigPhase port ≠ .kWaitingAddressed ∧
      err = .kInvalidPhase ∧ c' = c) ∨
    ((env.portsc port 0).currentConnectStatus = true ∧ c.addressingPort = 0 ∧
      (c.portConfigPhase port = .kNotConnected ∨ c.portConfigPhase port = .kWaitingAddressed) ∧
      err = .kSuccess ∧ c' = c.afterReset env port) := by
  unfold resetPort at h
  dsimp only at h
  cases hconnected : (env.portsc port 0).currentConnectStatus with
  | false =>
      rw [if_pos (by simp [hconnected])] at h
      cases h
      exact Or.inl ⟨rfl, rfl, rfl⟩
  | true =>
      rw [if_neg (by simp [hconnected])] at h
      split at h
      · rename_i haddressing
        cases h
        exact Or.inr (Or.inl ⟨rfl, haddressing, rfl, rfl⟩)
      · rename_i haddressing
        have hzero : c.addressingPort = 0 := not_not.mp haddressing
        split at h
        · rename_i hphase
          cases h
          exact Or.inr (Or.inr (Or.inl ⟨rfl, hzero, hphase.1, hphase.2, rfl, rfl⟩))
        · rename_i hphase
          obtain ⟨c₁, hreset, h⟩ := bind_eq_ok.mp h
          cases h
          unfold resetPortRegister at hreset
          split at hreset
          · cases hreset
            exact Or.inr (Or.inr (Or.inr ⟨rfl, hzero, by tauto, rfl, rfl⟩))
          · cases hreset

/-- The reset of `port` has been acknowledged and an Enable Slot command pushed at
`position`. -/
def afterEnable (env : Surroundings) (c : Controller) (port : BitVec 8) (position : Addr)
    (cr : Ring) : Controller :=
  ((c.writePortsc port (env.portsc port 2).clearPortResetChange).setPhase port
    .kEnablingSlot).afterPush port enableSlotCommandTRB position cr

/-- **`EnableSlot`** does nothing, or acknowledges the reset, moves the port on and pushes an
Enable Slot command. -/
theorem enableSlot_cases {env : Surroundings} {c c' : Controller} {port : BitVec 8} {err : Error}
    (h : enableSlot env c port = .ok (err, c')) :
    err = .kSuccess ∧ (c' = c ∨
      ∃ position cr, c.cr.push enableSlotCommandTRB = .ok (position, cr) ∧
        c' = c.afterEnable env port position cr) := by
  unfold enableSlot at h
  dsimp only at h
  split at h
  · obtain ⟨c₁, hpush, h⟩ := bind_eq_ok.mp h
    cases h
    obtain ⟨position, cr, hring, rfl⟩ := pushCommand_cases hpush
    exact ⟨rfl, Or.inr ⟨position, cr, hring, rfl⟩⟩
  · cases h
    exact ⟨rfl, Or.inl rfl⟩

/-! ## Slots and devices -/

/-- The device of a slot has been prepared for the Address Device command of
`portId`, whose TRB was pushed at `position`. -/
def afterAddress (c : Controller) (portId slotId : BitVec 8) (dev : Device) (pool : Pool)
    (position : Addr) (cr : Ring) : Controller :=
  ({ c with pool := pool, devmgr := c.devmgr.loadDevice slotId dev }.setPhase portId
    .kAddressingDevice).afterPush portId (addressDeviceCommandTRB dev.inputCtxAddr slotId) position
    cr

/-- **The end of `AddressDevice`**: the same device object, prepared for its port, and an
Address Device command for it on the ring.  There is no other outcome than success. -/
theorem addressFound_cases {env : Surroundings} {c c' : Controller} {portId slotId : BitVec 8}
    {dev : Device} {err : Error} (hslot : slotId.toNat ≤ c.devmgr.maxSlots)
    (h : addressFound env c portId slotId dev = .ok (err, c')) :
    err = .kSuccess ∧ ∃ dev' pool' position cr, Device.SameObject dev dev' ∧
      dev'.inputPort = portId ∧
      c.cr.push (addressDeviceCommandTRB dev'.inputCtxAddr slotId) = .ok (position, cr) ∧
      c' = c.afterAddress portId slotId dev' pool' position cr := by
  unfold addressFound at h
  dsimp only at h
  have hport : (dev.prepareAddress portId
      (env.portsc portId 0).portSpeed).inputContext.slotContext.rootHubPortNum = portId :=
    rootHubPortNum_initializeSlotContext _ _ _
  have hprepare : Device.SameObject dev
      (dev.prepareAddress portId (env.portsc portId 0).portSpeed) := ⟨rfl, rfl, rfl⟩
  generalize dev.prepareAddress portId (env.portsc portId 0).portSpeed = dev₁ at h hport hprepare
  have halloc := dev₁.allocTransferRing_keepsSlot 0 32 c.pool
  generalize dev₁.allocTransferRing 0 32 c.pool = result at h halloc
  obtain ⟨⟨dev', pool'⟩, huse, h⟩ := bind_eq_ok.mp h
  obtain ⟨hsame, hslotContext⟩ := Device.useControlRing_cases huse
  obtain ⟨⟨err₁, devmgr⟩, hload, h⟩ := bind_eq_ok.mp h
  obtain rfl := DeviceManager.loadDCBAA_setDevice hslot hload
  obtain ⟨c₁, hpush, h⟩ := bind_eq_ok.mp h
  cases h
  obtain ⟨position, cr, hring, rfl⟩ := pushCommand_cases hpush
  refine ⟨rfl, dev', pool', position, cr, ?_, ?_, hring, rfl⟩
  · exact hprepare.trans (halloc.sameObject.trans hsame)
  · rw [Device.inputPort, hslotContext, halloc.inputContext, hport]

/-- **`AddressDevice`** fails for a slot that does not exist.  Otherwise it takes
the device of the slot, or a new one, and pushes an Address Device command for
it. -/
theorem addressDevice_cases {env : Surroundings} {c c' : Controller} {portId slotId : BitVec 8}
    {err : Error} (h : addressDevice env c portId slotId = .ok (err, c')) :
    (c.devmgr.maxSlots < slotId.toNat ∧ err = .kInvalidSlotID ∧
      ∃ pool, c' = { c with pool := pool }) ∨
    (slotId.toNat ≤ c.devmgr.maxSlots ∧ err = .kSuccess ∧
      ∃ dev₀ dev pool position cr,
        (c.devmgr.devices slotId.toNat = some dev₀ ∨
          c.devmgr.devices slotId.toNat = none ∧ ∃ self, dev₀ = Device.new self slotId) ∧
        Device.SameObject dev₀ dev ∧ dev.inputPort = portId ∧
        c.cr.push (addressDeviceCommandTRB dev.inputCtxAddr slotId) = .ok (position, cr) ∧
        c' = c.afterAddress portId slotId dev pool position cr) := by
  unfold addressDevice at h
  obtain ⟨⟨err₁, devmgr, pool⟩, halloc, h⟩ := bind_eq_ok.mp h
  dsimp only at h
  rcases DeviceManager.allocDevice_cases halloc with
    ⟨hslot, rfl⟩ | ⟨hslot, rfl, dev₀, hdev⟩ | ⟨hslot, hfree, self, -, rfl⟩
  · have hnone : c.devmgr.findBySlot slotId = none := by
      unfold DeviceManager.findBySlot
      rw [if_pos hslot]
    rw [hnone] at h
    cases h
    exact Or.inl ⟨hslot, rfl, pool, rfl⟩
  · rw [DeviceManager.findBySlot_of_le hslot, hdev] at h
    obtain ⟨rfl, dev, pool', position, cr, hsame, hport, hpush, rfl⟩ := addressFound_cases
      (c := { c with pool := pool }) hslot h
    exact Or.inr ⟨hslot, rfl, dev₀, dev, pool', position, cr, Or.inl hdev, hsame, hport, hpush, rfl⟩
  · rw [DeviceManager.findBySlot_of_le (by exact hslot),
      DeviceManager.devices_setDevice_self] at h
    obtain ⟨rfl, dev, pool', position, cr, hsame, hport, hpush, rfl⟩ := addressFound_cases
      (c := { c with devmgr := c.devmgr.setDevice slotId (Device.new self slotId), pool := pool })
      hslot h
    refine Or.inr ⟨hslot, rfl, Device.new self slotId, dev, pool', position, cr,
      Or.inr ⟨hfree, self, rfl⟩, hsame, hport, hpush, ?_⟩
    unfold afterAddress
    rw [DeviceManager.loadDevice_setDevice]

/-- **`InitializeDevice`** moves the port on and starts the initialization of the
device in the slot. -/
theorem initializeDevice_cases {c c' : Controller} {portId slotId : BitVec 8} {err : Error}
    (h : initializeDevice c portId slotId = .ok (err, c')) :
    (c.devmgr.findBySlot slotId = none ∧ err = .kInvalidSlotID ∧ c' = c) ∨
    (err = .kSuccess ∧ ∃ dev dev', c.devmgr.findBySlot slotId = some dev ∧
      Device.KeepsSlot dev dev' ∧
      c' = (c.setPhase portId .kInitializingDevice).setDevice slotId dev') := by
  unfold initializeDevice at h
  split at h
  · rename_i hnone
    cases h
    exact Or.inl ⟨hnone, rfl, rfl⟩
  · rename_i dev hfound
    obtain ⟨⟨err₁, dev'⟩, hstart, h⟩ := bind_eq_ok.mp h
    cases h
    exact Or.inr ⟨rfl, dev, dev', hfound, Device.startInitialize_keepsSlot hstart, rfl⟩

/-- **`CompleteConfiguration`** moves the port on and tells the class drivers of the device, or
refuses a slot without a device. -/
theorem completeConfiguration_cases {c c' : Controller} {portId slotId : BitVec 8} {err : Error}
    (h : completeConfiguration c portId slotId = .ok (err, c')) :
    (c.devmgr.findBySlot slotId = none ∧ err = .kInvalidSlotID ∧ c' = c) ∨
    (err = .kSuccess ∧ ∃ dev dev', c.devmgr.findBySlot slotId = some dev ∧
      Device.KeepsSlot dev dev' ∧
      c' = (c.setDevice slotId dev').setPhase portId .kConfigured) := by
  unfold completeConfiguration at h
  split at h
  · rename_i hnone
    cases h
    exact Or.inl ⟨hnone, rfl, rfl⟩
  · rename_i dev hfound
    obtain ⟨⟨err₁, dev'⟩, hconfigured, h⟩ := bind_eq_ok.mp h
    cases h
    exact Or.inr ⟨rfl, dev, dev', hfound, Device.onEndpointsConfigured_keepsSlot hconfigured, rfl⟩

/-- The parts of `ConfigureEndpoints`: an unknown port speed ends it with an error; otherwise
the loop over the endpoints makes their rings, and the command follows. -/
theorem configureEndpoints_parts {env : Surroundings} {c c' : Controller} {slotId : BitVec 8}
    {dev : Device} {err : Error} (h : configureEndpoints env c slotId dev = .ok (err, c')) :
    let portId := dev.slotContext.rootHubPortNum
    let portSpeed := (env.portsc portId 0).portSpeed
    ((portSpeed = 0 ∨ 5 < portSpeed.toNat) ∧ err = .kUnknownXHCISpeedID ∧
        c' = c.setDevice slotId dev.prepareEndpoints) ∨
      (¬ (portSpeed = 0 ∨ 5 < portSpeed.toNat) ∧ err = .kSuccess ∧ ∃ dev' pool position cr,
        Device.configureEndpointLoop portSpeed dev.prepareEndpoints c.pool dev.numEpConfigs =
          .ok (dev', pool) ∧
        c.cr.push (configureEndpointCommandTRB dev'.inputCtxAddr dev'.slotId) =
          .ok (position, cr) ∧
        c' = (({ c with pool := pool }.setDevice slotId dev').setPhase portId
          .kConfiguringEndpoints).afterPush portId
          (configureEndpointCommandTRB dev'.inputCtxAddr dev'.slotId) position cr) := by
  unfold configureEndpoints at h
  dsimp only at h ⊢
  split at h
  · rename_i hspeed
    cases h
    exact Or.inl ⟨hspeed, rfl, rfl⟩
  · rename_i hspeed
    obtain ⟨⟨dev', pool⟩, hloop, h⟩ := bind_eq_ok.mp h
    obtain ⟨c₁, hpush, h⟩ := bind_eq_ok.mp h
    cases h
    obtain ⟨position, cr, hring, rfl⟩ := pushCommand_cases hpush
    exact Or.inr ⟨hspeed, rfl, dev', pool, position, cr, hloop, hring, rfl⟩

/-- The device has been prepared for the Configure Endpoint command of its port,
whose TRB was pushed at `position`. -/
def afterConfigure (c : Controller) (slotId : BitVec 8) (dev : Device) (pool : Pool)
    (position : Addr) (cr : Ring) : Controller :=
  (({ c with pool := pool }.setDevice slotId dev).setPhase dev.slotContext.rootHubPortNum
    .kConfiguringEndpoints).afterPush dev.slotContext.rootHubPortNum
    (configureEndpointCommandTRB dev.inputCtxAddr dev.slotId) position cr

/-- **`ConfigureEndpoints`** fails for a port without a known speed, or pushes a
Configure Endpoint command. -/
theorem configureEndpoints_cases {env : Surroundings} {c c' : Controller} {slotId : BitVec 8}
    {dev : Device} {err : Error} (h : configureEndpoints env c slotId dev = .ok (err, c')) :
    (err = .kUnknownXHCISpeedID ∧ ∃ dev', Device.SameObject dev dev' ∧
      dev'.inputPort = dev.slotContext.rootHubPortNum ∧ c' = c.setDevice slotId dev') ∨
    (err = .kSuccess ∧ ∃ dev' pool position cr, Device.SameObject dev dev' ∧
      dev'.inputPort = dev.slotContext.rootHubPortNum ∧
      c.cr.push (configureEndpointCommandTRB dev'.inputCtxAddr dev'.slotId) = .ok (position, cr) ∧
      c' = c.afterConfigure slotId dev' pool position cr) := by
  have hprepare : Device.SameObject dev dev.prepareEndpoints := ⟨rfl, rfl, rfl⟩
  have hinput := dev.inputPort_prepareEndpoints
  rcases configureEndpoints_parts h with
    ⟨-, rfl, rfl⟩ | ⟨-, rfl, dev', pool, position, cr, hloop, hring, rfl⟩
  · exact Or.inl ⟨rfl, dev.prepareEndpoints, hprepare, hinput, rfl⟩
  · obtain ⟨hkeeps, hslotContext⟩ := Device.configureEndpointLoop_sameObject _ hloop
    have hsame := hprepare.trans hkeeps
    have hinput' : dev'.inputPort = dev.slotContext.rootHubPortNum := by
      rw [Device.inputPort, hslotContext, ← Device.inputPort, hinput]
    refine Or.inr ⟨rfl, dev', pool, position, cr, hsame, hinput', hring, ?_⟩
    unfold afterConfigure
    rw [hsame.slotContext]

/-! ## Handing over -/

/-- The loop over `port_config_phase` goes through the port numbers in order. -/
theorem map_toNat_range : ((List.range 256).map (BitVec.ofNat 8)).map BitVec.toNat =
    List.range 256 := by
  rw [List.map_map]
  refine (List.map_congr_left fun i hi => ?_).trans (List.map_id _)
  have hlt := List.mem_range.mp hi
  rw [Function.comp_apply, BitVec.toNat_ofNat, id_eq]
  omega

/-- The loop over `port_config_phase` goes through every port number. -/
theorem mem_range_ofNat (p : BitVec 8) : p ∈ (List.range 256).map (BitVec.ofNat 8) :=
  List.mem_map.mpr ⟨p.toNat, List.mem_range.mpr p.isLt, by simp⟩

/-- The port the hand-over loop stops at waits, and no port with a lower number does. -/
theorem firstWaiting_eq_some {c : Controller} {port : BitVec 8} (h : c.firstWaiting = some port) :
    c.portConfigPhase port = .kWaitingAddressed ∧
      ∀ p, p.toNat < port.toNat → c.portConfigPhase p ≠ .kWaitingAddressed := by
  unfold firstWaiting at h
  have hphase : c.portConfigPhase port = .kWaitingAddressed := by
    simpa using List.find?_some h
  refine ⟨hphase, fun p hp hwaiting => ?_⟩
  obtain ⟨-, as, bs, hsplit, hall⟩ := List.find?_eq_some_iff_append.mp h
  have hsorted : (((List.range 256).map (BitVec.ofNat 8)).map BitVec.toNat).Pairwise (· < ·) := by
    rw [map_toNat_range]
    exact List.pairwise_lt_range
  rw [hsplit, List.map_append, List.map_cons, List.pairwise_append] at hsorted
  have hmem := mem_range_ofNat p
  rw [hsplit] at hmem
  rcases List.mem_append.mp hmem with has | hbs
  · simpa [hwaiting] using hall p has
  · rcases List.mem_cons.mp hbs with rfl | hlater
    · exact Nat.lt_irrefl _ hp
    · have := List.rel_of_pairwise_cons hsorted.2.1 (List.mem_map_of_mem hlater)
      omega

/-- Without a first waiting port there is none. -/
theorem firstWaiting_eq_none {c : Controller} (h : c.firstWaiting = none) (p : BitVec 8) :
    c.portConfigPhase p ≠ .kWaitingAddressed := by
  unfold firstWaiting at h
  simpa using List.find?_eq_none.mp h p (mem_range_ofNat p)

/-- **The hand-over loop** takes the lowest waiting port if it is connected, and
nothing otherwise. -/
theorem handOver_cases {env : Surroundings} {c c' : Controller} {err : Error}
    (hzero : c.addressingPort = 0) (h : handOver env c = .ok (err, c')) :
    err = .kSuccess ∧
      ((c.firstWaiting = none ∧ c' = c) ∨
      (∃ port, c.firstWaiting = some port ∧
        (env.portsc port 0).currentConnectStatus = false ∧ c' = c) ∨
      (∃ port, c.firstWaiting = some port ∧
        (env.portsc port 0).currentConnectStatus = true ∧ c' = c.afterReset env port)) := by
  unfold handOver at h
  split at h
  · rename_i hnone
    cases h
    exact ⟨rfl, Or.inl ⟨hnone, rfl⟩⟩
  · rename_i port hfirst
    obtain ⟨hwaiting, -⟩ := firstWaiting_eq_some hfirst
    rcases resetPort_cases h with ⟨hconnected, rfl, rfl⟩ | ⟨-, hne, -, -⟩ | ⟨-, -, -, hne, -, -⟩ |
      ⟨hconnected, -, -, rfl, rfl⟩
    · exact ⟨rfl, Or.inr (Or.inl ⟨port, hfirst, hconnected, rfl⟩)⟩
    · exact absurd hzero hne
    · exact absurd hwaiting hne
    · exact ⟨rfl, Or.inr (Or.inr ⟨port, hfirst, hconnected, rfl⟩)⟩

/-! ## Events -/

/-- The completion of a command is what its port waits for. -/
def Fits (env : Surroundings) (c : Controller) (trb : Trb) : Prop :=
  let issuerType := (trbAt env c trb.pointer60).trbType
  (issuerType = enableSlotCommandType ∧ c.portConfigPhase c.addressingPort = .kEnablingSlot) ∨
  (issuerType = addressDeviceCommandType ∧
    ∃ dev, c.devmgr.findBySlot (eventSlotId trb) = some dev ∧
      dev.slotContext.rootHubPortNum = c.addressingPort ∧
      c.portConfigPhase c.addressingPort = .kAddressingDevice) ∨
  (issuerType = configureEndpointCommandType ∧
    ∃ dev, c.devmgr.findBySlot (eventSlotId trb) = some dev ∧
      c.portConfigPhase dev.slotContext.rootHubPortNum = .kConfiguringEndpoints)

/-- What handling the event `trb` can do. -/
inductive EventOutcome (env : Surroundings) (trb : Trb) (c : Controller) : Controller → Prop
  /-- Nothing: the event does not fit the phase, or its port is not ready. -/
  | refused (hrefused : trb.trbType = commandCompletionEventType → ¬ Fits env c trb) :
      EventOutcome env trb c c
  /-- A port that finds `addressing_port` taken waits. -/
  | wait (htype : trb.trbType = portStatusChangeEventType)
      (hphase : c.portConfigPhase (eventPortId trb) = .kNotConnected)
      (haddressing : c.addressingPort ≠ 0) :
      EventOutcome env trb c (c.setPhase (eventPortId trb) .kWaitingAddressed)
  /-- A newly connected port is reset. -/
  | reset (htype : trb.trbType = portStatusChangeEventType)
      (hphase : c.portConfigPhase (eventPortId trb) = .kNotConnected)
      (haddressing : c.addressingPort = 0) :
      EventOutcome env trb c (c.afterReset env (eventPortId trb))
  /-- The reset has completed. -/
  | enable {position : Addr} {cr : Ring} (htype : trb.trbType = portStatusChangeEventType)
      (hphase : c.portConfigPhase (eventPortId trb) = .kResettingPort)
      (hpush : c.cr.push enableSlotCommandTRB = .ok (position, cr)) :
      EventOutcome env trb c (c.afterEnable env (eventPortId trb) position cr)
  /-- A slot was enabled that does not exist. -/
  | noSlot {pool : Pool} (htype : trb.trbType = commandCompletionEventType)
      (hissuer : (trbAt env c trb.pointer60).trbType = enableSlotCommandType)
      (hphase : c.portConfigPhase c.addressingPort = .kEnablingSlot)
      (hslot : c.devmgr.maxSlots < (eventSlotId trb).toNat) :
      EventOutcome env trb c { c with pool := pool }
  /-- A slot was enabled and its device is being addressed. -/
  | address {dev₀ dev : Device} {pool : Pool} {position : Addr} {cr : Ring}
      (htype : trb.trbType = commandCompletionEventType)
      (hissuer : (trbAt env c trb.pointer60).trbType = enableSlotCommandType)
      (hphase : c.portConfigPhase c.addressingPort = .kEnablingSlot)
      (hslot : (eventSlotId trb).toNat ≤ c.devmgr.maxSlots)
      (hdev : c.devmgr.devices (eventSlotId trb).toNat = some dev₀ ∨
        c.devmgr.devices (eventSlotId trb).toNat = none ∧
          ∃ self, dev₀ = Device.new self (eventSlotId trb))
      (hsame : Device.SameObject dev₀ dev)
      (hport : dev.inputPort = c.addressingPort)
      (hpush : c.cr.push (addressDeviceCommandTRB dev.inputCtxAddr (eventSlotId trb)) =
        .ok (position, cr)) :
      EventOutcome env trb c
        (c.afterAddress c.addressingPort (eventSlotId trb) dev pool position cr)
  /-- A device has its address: the next port is taken, if there is one, and the
  device is initialized. -/
  | addressed {dev dev' : Device} {c₁ : Controller}
      (htype : trb.trbType = commandCompletionEventType)
      (hissuer : (trbAt env c trb.pointer60).trbType = addressDeviceCommandType)
      (hdev : c.devmgr.findBySlot (eventSlotId trb) = some dev)
      (hport : dev.slotContext.rootHubPortNum = c.addressingPort)
      (hphase : c.portConfigPhase c.addressingPort = .kAddressingDevice)
      (hnext : c₁ = { c with addressingPort := 0 } ∨
        ∃ port, c.firstWaiting = some port ∧
          c₁ = { c with addressingPort := 0 }.afterReset env port)
      (hkeeps : Device.KeepsSlot dev dev') :
      EventOutcome env trb c ((c₁.setPhase c.addressingPort .kInitializingDevice).setDevice
        (eventSlotId trb) dev')
  /-- A transfer has completed. -/
  | transfer {dev dev' : Device} {pool : Pool} (htype : trb.trbType = transferEventType)
      (hdev : c.devmgr.findBySlot (Device.eventSlotId trb) = some dev)
      (hsame : Device.SameObject dev dev')
      (hinput : dev'.inputPort = dev.inputPort ∨
        c.portConfigPhase dev.slotContext.rootHubPortNum = .kInitializingDevice ∧
          dev'.inputPort = dev.slotContext.rootHubPortNum) :
      EventOutcome env trb c ({ c with pool := pool }.setDevice (Device.eventSlotId trb) dev')
  /-- The transfer that completed was the last one of the initialization. -/
  | configure {dev dev' : Device} {pool : Pool} {position : Addr} {cr : Ring}
      (htype : trb.trbType = transferEventType)
      (hdev : c.devmgr.findBySlot (Device.eventSlotId trb) = some dev)
      (hphase : c.portConfigPhase dev.slotContext.rootHubPortNum = .kInitializingDevice)
      (hsame : Device.SameObject dev dev')
      (hinput : dev'.inputPort = dev.slotContext.rootHubPortNum)
      (hpush : c.cr.push (configureEndpointCommandTRB dev'.inputCtxAddr dev'.slotId) =
        .ok (position, cr)) :
      EventOutcome env trb c (c.afterConfigure (Device.eventSlotId trb) dev' pool position cr)
  /-- The endpoints of a device have been configured. -/
  | configured {dev dev' : Device} (htype : trb.trbType = commandCompletionEventType)
      (hissuer : (trbAt env c trb.pointer60).trbType = configureEndpointCommandType)
      (hdev : c.devmgr.findBySlot (eventSlotId trb) = some dev)
      (hphase : c.portConfigPhase dev.slotContext.rootHubPortNum = .kConfiguringEndpoints)
      (hkeeps : Device.KeepsSlot dev dev') :
      EventOutcome env trb c ((c.setDevice (eventSlotId trb) dev').setPhase
        dev.slotContext.rootHubPortNum .kConfigured)

/-- An event of a port has one of the outcomes: nothing changes, the port waits, it is reset, or
a slot is enabled for it. -/
theorem onPortStatusChangeEvent_outcome {env : Surroundings} {trb : Trb} {c c' : Controller}
    {err : Error} (htype : trb.trbType = portStatusChangeEventType)
    (h : onPortStatusChangeEvent env trb c = .ok (err, c')) : EventOutcome env trb c c' := by
  have hother : trb.trbType ≠ commandCompletionEventType := by
    rw [htype]
    decide
  unfold onPortStatusChangeEvent at h
  dsimp only at h
  split at h
  · rename_i hphase
    rcases resetPort_cases h with ⟨-, -, rfl⟩ | ⟨-, haddressing, -, rfl⟩ | ⟨-, -, -, -, -, rfl⟩ |
      ⟨-, haddressing, -, -, rfl⟩
    · exact .refused fun h => absurd h hother
    · exact .wait htype hphase haddressing
    · exact .refused fun h => absurd h hother
    · exact .reset htype hphase haddressing
  · rename_i hphase
    rcases enableSlot_cases h with ⟨-, rfl | ⟨position, cr, hpush, rfl⟩⟩
    · exact .refused fun h => absurd h hother
    · exact .enable htype hphase hpush
  · cases h
    exact .refused fun h => absurd h hother

/-- A Transfer Event has one of the outcomes: it is refused, it goes to its device, or it starts
the configuration of the endpoints. -/
theorem onTransferEvent_outcome {env : Surroundings} {trb : Trb} {c c' : Controller} {err : Error}
    (htype : trb.trbType = transferEventType) (h : onTransferEvent env trb c = .ok (err, c')) :
    EventOutcome env trb c c' := by
  have hother : trb.trbType ≠ commandCompletionEventType := by
    rw [htype]
    decide
  unfold onTransferEvent at h
  dsimp only at h
  split at h
  · cases h
    exact .refused fun h => absurd h hother
  · rename_i dev hdev
    obtain ⟨⟨err₁, dev₁, pool⟩, hreceived, h⟩ := bind_eq_ok.mp h
    dsimp only at h
    have hkeeps := Device.onTransferEventReceived_keepsSlot hreceived
    split at h
    · cases h
      exact .transfer htype hdev hkeeps.sameObject (Or.inl hkeeps.inputPort)
    · unfold afterTransferEvent at h
      dsimp only at h
      split at h
      · rename_i hready
        have hphase : c.portConfigPhase dev.slotContext.rootHubPortNum = .kInitializingDevice := by
          rw [← hkeeps.slotContext]
          exact hready.2
        rcases configureEndpoints_cases h with ⟨-, dev', hsame, hinput', rfl⟩ |
          ⟨-, dev', pool', position, cr, hsame, hinput', hpush, rfl⟩
        · rw [hkeeps.slotContext] at hinput'
          have hall := hkeeps.sameObject.trans hsame
          have hlast : ({ c with pool := pool }.setDevice (Device.eventSlotId trb) dev₁).setDevice
              (Device.eventSlotId trb) dev' =
                { c with pool := pool }.setDevice (Device.eventSlotId trb) dev' := by
            simp [setDevice, DeviceManager.setDevice]
          rw [hlast]
          exact .transfer htype hdev hall (Or.inr ⟨hphase, hinput'⟩)
        · rw [hkeeps.slotContext] at hinput'
          have hall := hkeeps.sameObject.trans hsame
          have hlast : ({ c with pool := pool }.setDevice (Device.eventSlotId trb)
              dev₁).afterConfigure (Device.eventSlotId trb) dev' pool' position cr =
                c.afterConfigure (Device.eventSlotId trb) dev' pool' position cr := by
            simp [afterConfigure, setDevice, DeviceManager.setDevice, setPhase, afterPush]
          rw [hlast]
          exact .configure htype hdev hphase hall hinput' hpush
      · cases h
        exact .transfer htype hdev hkeeps.sameObject (Or.inl hkeeps.inputPort)

/-- The completion of an Address Device command is refused, or hands the turn to the next
waiting port and starts to initialize the device. -/
theorem onAddressDeviceCompleted_cases {env : Surroundings} {slotId : BitVec 8}
    {c c' : Controller} {err : Error}
    (h : onAddressDeviceCompleted env slotId c = .ok (err, c')) :
    (err ≠ .kSuccess ∧ c' = c ∧ ¬ ∃ dev, c.devmgr.findBySlot slotId = some dev ∧
      dev.slotContext.rootHubPortNum = c.addressingPort ∧
      c.portConfigPhase c.addressingPort = .kAddressingDevice) ∨
    (err = .kSuccess ∧ ∃ dev dev' c₁, c.devmgr.findBySlot slotId = some dev ∧
      dev.slotContext.rootHubPortNum = c.addressingPort ∧
      c.portConfigPhase c.addressingPort = .kAddressingDevice ∧
      handOver env { c with addressingPort := 0 } = .ok (.kSuccess, c₁) ∧
      Device.KeepsSlot dev dev' ∧
      c' = (c₁.setPhase c.addressingPort .kInitializingDevice).setDevice slotId dev') := by
  unfold onAddressDeviceCompleted at h
  split at h
  · rename_i hnone
    cases h
    refine Or.inl ⟨by decide, rfl, ?_⟩
    rintro ⟨dev, hdev, -⟩
    rw [hnone] at hdev
    cases hdev
  · rename_i dev hdev
    dsimp only at h
    split at h
    · rename_i hport
      cases h
      refine Or.inl ⟨by decide, rfl, ?_⟩
      rintro ⟨dev₁, hdev₁, hport₁, -⟩
      rw [hdev] at hdev₁
      cases hdev₁
      exact hport hport₁
    · rename_i hport
      have hport : dev.slotContext.rootHubPortNum = c.addressingPort := not_not.mp hport
      split at h
      · rename_i hphase
        cases h
        refine Or.inl ⟨by decide, rfl, ?_⟩
        rintro ⟨dev₁, -, -, hphase₁⟩
        rw [hport] at hphase
        exact hphase hphase₁
      · rename_i hphase
        rw [hport] at h hphase
        obtain ⟨⟨err₁, c₁⟩, hhand, h⟩ := bind_eq_ok.mp h
        dsimp only at h
        obtain ⟨rfl, hnext⟩ := handOver_cases (c := { c with addressingPort := 0 }) rfl hhand
        have hdevmgr : c₁.devmgr = c.devmgr := by
          rcases hnext with ⟨-, rfl⟩ | ⟨port, -, -, rfl⟩ | ⟨port, -, -, rfl⟩
          · rfl
          · rfl
          · rfl
        rw [if_neg (by simp)] at h
        rcases initializeDevice_cases h with ⟨hnone, -, -⟩ | ⟨rfl, dev₁, dev', hfound, hkeeps, rfl⟩
        · rw [hdevmgr, hdev] at hnone
          cases hnone
        · rw [hdevmgr, hdev] at hfound
          cases hfound
          exact Or.inr ⟨rfl, dev, dev', c₁, hdev, hport, not_not.mp hphase, hhand, hkeeps, rfl⟩

/-- The completion of a Configure Endpoint command goes to the device in its slot if its port
waits for it, and otherwise does nothing. -/
theorem onConfigureEndpointCompleted_cases {slotId : BitVec 8} {c c' : Controller} {err : Error}
    (h : onConfigureEndpointCompleted slotId c = .ok (err, c')) :
    (c' = c ∧ ¬ ∃ dev, c.devmgr.findBySlot slotId = some dev ∧
      c.portConfigPhase dev.slotContext.rootHubPortNum = .kConfiguringEndpoints) ∨
    (∃ dev dev', c.devmgr.findBySlot slotId = some dev ∧
      c.portConfigPhase dev.slotContext.rootHubPortNum = .kConfiguringEndpoints ∧
      Device.KeepsSlot dev dev' ∧
      c' = (c.setDevice slotId dev').setPhase dev.slotContext.rootHubPortNum .kConfigured) := by
  unfold onConfigureEndpointCompleted at h
  split at h
  · rename_i hnone
    cases h
    refine Or.inl ⟨rfl, ?_⟩
    rintro ⟨dev, hdev, -⟩
    rw [hnone] at hdev
    cases hdev
  · rename_i dev hdev
    dsimp only at h
    split at h
    · rename_i hphase
      cases h
      refine Or.inl ⟨rfl, ?_⟩
      rintro ⟨dev₁, hdev₁, hphase₁⟩
      rw [hdev] at hdev₁
      cases hdev₁
      exact hphase hphase₁
    · rename_i hphase
      rcases completeConfiguration_cases h with ⟨hnone, -, -⟩ |
        ⟨-, dev₁, dev', hfound, hkeeps, rfl⟩
      · rw [hdev] at hnone
        cases hnone
      · rw [hdev] at hfound
        cases hfound
        exact Or.inr ⟨dev, dev', hdev, not_not.mp hphase, hkeeps, rfl⟩

/-- A Command Completion Event has one of the outcomes, by the type of the command that it
completes. -/
theorem onCommandCompletionEvent_outcome {env : Surroundings} {trb : Trb} {c c' : Controller}
    {err : Error} (htype : trb.trbType = commandCompletionEventType)
    (h : onCommandCompletionEvent env trb c = .ok (err, c')) : EventOutcome env trb c c' := by
  unfold onCommandCompletionEvent at h
  dsimp only at h
  -- One alternative of `Fits` for each type of command that is looked for.
  split at h
  · rename_i hissuer
    unfold onEnableSlotCompleted at h
    split at h
    · rename_i hphase
      cases h
      refine .refused fun _ => ?_
      rintro (⟨-, hphase'⟩ | ⟨hissuer', -⟩ | ⟨hissuer', -⟩)
      · exact hphase hphase'
      · exact absurd (hissuer.symm.trans hissuer') (by decide)
      · exact absurd (hissuer.symm.trans hissuer') (by decide)
    · rename_i hphase
      have hphase := not_not.mp hphase
      rcases addressDevice_cases h with ⟨hslot, -, pool, rfl⟩ |
        ⟨hslot, -, dev₀, dev, pool, position, cr, hdev, hsame, hport, hpush, rfl⟩
      · exact .noSlot htype hissuer hphase hslot
      · exact .address htype hissuer hphase hslot hdev hsame hport hpush
  · rename_i hnotEnable
    split at h
    · rename_i hissuer
      rcases onAddressDeviceCompleted_cases h with ⟨-, rfl, hnone⟩ |
        ⟨-, dev, dev', c₁, hdev, hport, hphase, hhand, hkeeps, rfl⟩
      · refine .refused fun _ => ?_
        rintro (⟨hissuer', -⟩ | ⟨-, hfits⟩ | ⟨hissuer', -⟩)
        · exact hnotEnable hissuer'
        · exact hnone hfits
        · exact absurd (hissuer.symm.trans hissuer') (by decide)
      · obtain ⟨-, hnext⟩ := handOver_cases (c := { c with addressingPort := 0 }) rfl hhand
        refine .addressed htype hissuer hdev hport hphase ?_ hkeeps
        rcases hnext with ⟨-, rfl⟩ | ⟨port, -, -, rfl⟩ | ⟨port, hfirst, -, rfl⟩
        · exact Or.inl rfl
        · exact Or.inl rfl
        · exact Or.inr ⟨port, hfirst, rfl⟩
    · rename_i hnotAddress
      split at h
      · rename_i hissuer
        rcases onConfigureEndpointCompleted_cases h with ⟨rfl, hnone⟩ |
          ⟨dev, dev', hdev, hphase, hkeeps, rfl⟩
        · refine .refused fun _ => ?_
          rintro (⟨hissuer', -⟩ | ⟨hissuer', -⟩ | ⟨-, hfits⟩)
          · exact hnotEnable hissuer'
          · exact hnotAddress hissuer'
          · exact hnone hfits
        · exact .configured htype hissuer hdev hphase hkeeps
      · rename_i hnotConfigure
        cases h
        refine .refused fun _ => ?_
        rintro (⟨hissuer', -⟩ | ⟨hissuer', -⟩ | ⟨hissuer', -⟩)
        · exact hnotEnable hissuer'
        · exact hnotAddress hissuer'
        · exact hnotConfigure hissuer'

/-- **Every event** that is handled has one of the outcomes, so an invariant is shown for the
outcomes and not for the branches of the handlers. -/
theorem onEvent_outcome {env : Surroundings} {trb : Trb} {c c' : Controller} {err : Error}
    (h : onEvent env trb c = .ok (err, c')) : EventOutcome env trb c c' := by
  unfold onEvent EventRing.dispatch at h
  split at h
  · rename_i htype
    exact onTransferEvent_outcome htype h
  · split at h
    · rename_i htype
      exact onPortStatusChangeEvent_outcome htype h
    · split at h
      · rename_i htype
        exact onCommandCompletionEvent_outcome htype h
      · rename_i hother
        cases h
        exact .refused fun htype => absurd htype hother

/-- No handler touches the event ring or the number of slots and ports. -/
theorem outcome_frame {env : Surroundings} {trb : Trb} {c c' : Controller}
    (h : EventOutcome env trb c c') : c'.er = c.er ∧ c'.maxPorts = c.maxPorts ∧
      c'.devmgr.maxSlots = c.devmgr.maxSlots := by
  cases h with
  | addressed _ _ _ _ _ hnext _ =>
      rcases hnext with rfl | ⟨port, -, rfl⟩
      · exact ⟨rfl, rfl, rfl⟩
      · exact ⟨rfl, rfl, rfl⟩
  | _ => exact ⟨rfl, rfl, rfl⟩

/-- A device after an event: the object that was in its slot before, with an input
context that names the same port, the root hub port or the port being addressed;
or a new object. -/
theorem outcome_device {env : Surroundings} {trb : Trb} {c c' : Controller}
    (h : EventOutcome env trb c c') {i : Nat} {dev' : Device}
    (hdev' : c'.devmgr.devices i = some dev') :
    (∃ dev, c.devmgr.devices i = some dev ∧ Device.SameObject dev dev' ∧
      (dev'.inputPort = dev.inputPort ∨
        (c.portConfigPhase dev.slotContext.rootHubPortNum = .kInitializingDevice ∧
          dev'.inputPort = dev.slotContext.rootHubPortNum) ∨
        (dev'.inputPort = c.addressingPort ∧
          c'.portConfigPhase c.addressingPort = .kAddressingDevice))) ∨
    (c.devmgr.devices i = none ∧ dev'.slotContext.rootHubPortNum = 0 ∧
      dev'.inputPort = c.addressingPort ∧
      c'.portConfigPhase c.addressingPort = .kAddressingDevice) := by
  have hold : c.devmgr.devices i = some dev' → (∃ dev, c.devmgr.devices i = some dev ∧
      Device.SameObject dev dev' ∧ (dev'.inputPort = dev.inputPort ∨
        (c.portConfigPhase dev.slotContext.rootHubPortNum = .kInitializingDevice ∧
          dev'.inputPort = dev.slotContext.rootHubPortNum) ∨
        (dev'.inputPort = c.addressingPort ∧
          c'.portConfigPhase c.addressingPort = .kAddressingDevice))) :=
    fun hdev => ⟨dev', hdev, .refl dev', Or.inl rfl⟩
  cases h with
  | refused => exact Or.inl (hold hdev')
  | wait => exact Or.inl (hold hdev')
  | reset => exact Or.inl (hold hdev')
  | enable => exact Or.inl (hold hdev')
  | noSlot => exact Or.inl (hold hdev')
  | @address dev₀ dev pool position cr htype hissuer hphase hslot hdev hsame hport hpush =>
      have hphase' : (c.afterAddress c.addressingPort (eventSlotId trb) dev pool position
          cr).portConfigPhase c.addressingPort = .kAddressingDevice := Function.update_self _ _ _
      rcases DeviceManager.devices_setDevice_cases hdev' with ⟨rfl, rfl⟩ | ⟨-, hdev'⟩
      · rcases hdev with hdev | ⟨hnone, self, rfl⟩
        · exact Or.inl ⟨dev₀, hdev, hsame, Or.inr (Or.inr ⟨hport, hphase'⟩)⟩
        · refine Or.inr ⟨hnone, ?_, hport, hphase'⟩
          rw [hsame.slotContext]
          exact rootHubPortNum_zero
      · exact Or.inl (hold hdev')
  | @addressed dev dev₁ c₁ htype hissuer hdev hport hphase hnext hkeeps =>
      have hdevices : c₁.devmgr = c.devmgr := by
        rcases hnext with rfl | ⟨port, -, rfl⟩
        · rfl
        · rfl
      obtain ⟨-, hdev⟩ := DeviceManager.findBySlot_eq_some hdev
      rcases DeviceManager.devices_setDevice_cases hdev' with ⟨rfl, rfl⟩ | ⟨-, hdev'⟩
      · exact Or.inl ⟨dev, hdev, hkeeps.sameObject, Or.inl hkeeps.inputPort⟩
      · exact Or.inl (hold (by rw [← hdevices]; exact hdev'))
  | @transfer dev dev₁ pool htype hdev hsame hinput =>
      obtain ⟨-, hdev⟩ := DeviceManager.findBySlot_eq_some hdev
      rcases DeviceManager.devices_setDevice_cases hdev' with ⟨rfl, rfl⟩ | ⟨-, hdev'⟩
      · refine Or.inl ⟨dev, hdev, hsame, ?_⟩
        rcases hinput with hinput | hinput
        · exact Or.inl hinput
        · exact Or.inr (Or.inl hinput)
      · exact Or.inl (hold hdev')
  | @configure dev dev₁ pool position cr htype hdev hphase hsame hinput hpush =>
      obtain ⟨-, hdev⟩ := DeviceManager.findBySlot_eq_some hdev
      rcases DeviceManager.devices_setDevice_cases hdev' with ⟨rfl, rfl⟩ | ⟨-, hdev'⟩
      · exact Or.inl ⟨dev, hdev, hsame, Or.inr (Or.inl ⟨hphase, hinput⟩)⟩
      · exact Or.inl (hold hdev')
  | @configured dev dev₁ htype hissuer hdev hphase hkeeps =>
      obtain ⟨-, hdev⟩ := DeviceManager.findBySlot_eq_some hdev
      rcases DeviceManager.devices_setDevice_cases hdev' with ⟨rfl, rfl⟩ | ⟨-, hdev'⟩
      · exact Or.inl ⟨dev, hdev, hkeeps.sameObject, Or.inl hkeeps.inputPort⟩
      · exact Or.inl (hold hdev')

/-- **`ProcessEvent`** finds no event, or handles the first one and pops it; in both cases the
state says which. -/
theorem processEvent_cases {env : Surroundings} {c c' : Controller} {err : Error}
    (h : processEvent env c = .ok (err, c')) :
    (c.er.hasFront = .ok false ∧ err = .kSuccess ∧ c' = c) ∨
    ∃ trb c₁, c.er.hasFront = .ok true ∧ c.er.front = .ok trb ∧
      onEvent env trb c = .ok (err, c₁) ∧ c' = { c₁ with er := c.er.pop } := by
  unfold processEvent at h
  obtain ⟨⟨err₁, er, c₁⟩, hring, h⟩ := bind_eq_ok.mp h
  cases h
  unfold EventRing.processEvent at hring
  obtain ⟨front, hfront, hring⟩ := bind_eq_ok.mp hring
  cases front with
  | false =>
      rw [if_neg (by decide)] at hring
      cases hring
      exact Or.inl ⟨hfront, rfl, rfl⟩
  | true =>
      rw [if_pos rfl] at hring
      obtain ⟨trb, htrb, hring⟩ := bind_eq_ok.mp hring
      obtain ⟨⟨err₂, c₂⟩, hevent, hring⟩ := bind_eq_ok.mp hring
      cases hring
      exact Or.inr ⟨trb, c₁, hfront, htrb, hevent, rfl⟩

/-- `ConfigurePort` does nothing at a port that is on its way, and otherwise lets it wait or
starts to reset it. -/
theorem configurePort_cases {env : Surroundings} {c c' : Controller} {port : BitVec 8}
    {err : Error} (h : configurePort env c port = .ok (err, c')) :
    c' = c ∨
    (c.portConfigPhase port = .kNotConnected ∧ c.addressingPort ≠ 0 ∧
      c' = c.setPhase port .kWaitingAddressed) ∨
    (c.portConfigPhase port = .kNotConnected ∧ c.addressingPort = 0 ∧
      c' = c.afterReset env port) := by
  unfold configurePort at h
  split at h
  · rename_i hphase
    rcases resetPort_cases h with ⟨-, -, rfl⟩ | ⟨-, haddressing, -, rfl⟩ | ⟨-, -, -, -, -, rfl⟩ |
      ⟨-, haddressing, -, -, rfl⟩
    · exact Or.inl rfl
    · exact Or.inr (Or.inl ⟨hphase, haddressing, rfl⟩)
    · exact Or.inl rfl
    · exact Or.inr (Or.inr ⟨hphase, haddressing, rfl⟩)
  · cases h
    exact Or.inl rfl

end Controller

end Mikanos.Xhci
