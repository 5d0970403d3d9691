import Mikanos.Xhci.DeviceEffects

/-!
# What a call does to the controller

The same for the driver as a whole.  Between two calls `KeepsPlaces` says that the structures
are where they were.  A step of a run is a sequence of effects: the structures stay where they
are, the hardware writes into them, a device changes by effects of its own, or `AllocDevice`
makes a device.  So an invariant of the driver over whole runs is shown for the four of them
(`run_induction`).
-/

namespace Mikanos.Xhci.Controller

open Relation Mikanos.Usb

/-- All pointers to structures, and the pool, are the same. -/
structure KeepsPlaces (c c' : Controller) : Prop where
  devices : c'.devmgr.devices = c.devmgr.devices
  contextArray : c'.devmgr.contextArray = c.devmgr.contextArray
  maxSlots : c'.devmgr.maxSlots = c.devmgr.maxSlots
  scratchpad : c'.scratchpad = c.scratchpad
  commandRing : c'.cr.buf = c.cr.buf ∧ c'.cr.bufSize = c.cr.bufSize
  eventRing : c'.er.buf = c.er.buf
  eventRingSize : c'.er.bufSize = c.er.bufSize
  segmentTable : c'.er.erst = c.er.erst
  pool : c'.pool = c.pool

/-- One effect on the driver. -/
inductive Effect : Controller → Controller → Prop
  /-- The structures stay where they are. -/
  | places {c c' : Controller} (hplaces : KeepsPlaces c c') : Effect c c'
  /-- The hardware writes events and slot contexts. -/
  | hardware {c : Controller} (mem : Nat → Trb) (interrupter : InterrupterRegisterSet)
      (contexts : Nat → SlotContext) : Effect c (c.hardware mem interrupter contexts)
  /-- Something happens to the device in a slot. -/
  | device {c : Controller} {slotId : BitVec 8} {dev dev' : Device} {pool' : Pool}
      (hdev : c.devmgr.devices slotId.toNat = some dev)
      (hcall : Device.Effects dev c.pool dev' pool') :
      Effect c ({ c with pool := pool' }.setDevice slotId dev')
  /-- `AllocDevice`. -/
  | newDevice {c : Controller} {slotId : BitVec 8} {err : Error} {devmgr : DeviceManager}
      {pool' : Pool} (hcall : c.devmgr.allocDevice slotId c.pool = .ok (err, devmgr, pool')) :
      Effect c { c with devmgr := devmgr, pool := pool' }

/-- A sequence of effects. -/
def Effects (c c' : Controller) : Prop := ReflTransGen Effect c c'

variable {env : Surroundings} {c c' c'' : Controller} {slotId : BitVec 8} {dev dev' : Device}
  {pool' : Pool} {err : Error}

theorem Effects.refl : Effects c c := ReflTransGen.refl

theorem Effects.trans (h : Effects c c') (h' : Effects c' c'') : Effects c c'' :=
  ReflTransGen.trans h h'

/-- A call that moves no pointer and takes nothing from the pool is one effect of the first
kind.  Most of the ports' bookkeeping is of this sort. -/
theorem Effects.of_places (h : KeepsPlaces c c') : Effects c c' := .single (.places h)

/-- What the device layer does with the device in a slot is one effect on the driver, with the
whole sequence of the device's own effects inside it. -/
theorem setDevice_effects (hdev : c.devmgr.devices slotId.toNat = some dev)
    (h : Device.Effects dev c.pool dev' pool') :
    Effects c ({ c with pool := pool' }.setDevice slotId dev') := .single (.device hdev h)

/-- A command uses the TRBs of the command ring. -/
theorem pushCommand_effects {port : BitVec 8} {cmd : Trb}
    (h : c.pushCommand port cmd = .ok c') : Effects c c' := by
  obtain ⟨position, cr, hpush, rfl⟩ := pushCommand_cases h
  exact .of_places ⟨rfl, rfl, rfl, rfl, Ring.push_place hpush, rfl, rfl, rfl, rfl⟩

/-! ## Ports -/

/-- `ResetPort` writes a port register and the phases, in each of its four outcomes, and touches
no memory. -/
theorem resetPort_effects {port : BitVec 8} (h : resetPort env c port = .ok (err, c')) :
    Effects c c' := by
  rcases resetPort_cases h with ⟨-, -, rfl⟩ | ⟨-, -, -, rfl⟩ | ⟨-, -, -, -, -, rfl⟩ |
    ⟨-, -, -, -, rfl⟩
  · exact .refl
  · exact .of_places ⟨rfl, rfl, rfl, rfl, ⟨rfl, rfl⟩, rfl, rfl, rfl, rfl⟩
  · exact .refl
  · exact .of_places ⟨rfl, rfl, rfl, rfl, ⟨rfl, rfl⟩, rfl, rfl, rfl, rfl⟩

/-- `ConfigurePort` is `ResetPort` or nothing. -/
theorem configurePort_effects {port : BitVec 8} (h : configurePort env c port = .ok (err, c')) :
    Effects c c' := by
  unfold configurePort at h
  split at h
  · exact resetPort_effects h
  · cases h
    exact .refl

/-- `EnableSlot` may push a command: the TRBs of the command ring change, their place does not.
-/
theorem enableSlot_effects {port : BitVec 8} (h : enableSlot env c port = .ok (err, c')) :
    Effects c c' := by
  obtain ⟨-, rfl | ⟨position, cr, hpush, rfl⟩⟩ := enableSlot_cases h
  · exact .refl
  · exact .of_places ⟨rfl, rfl, rfl, rfl, Ring.push_place hpush, rfl, rfl, rfl, rfl⟩

/-! ## Devices -/

/-- `AddressDevice` after the device was found: its contexts are prepared, the control ring is
made, `LoadDCBAA` sets a pointer that the driver itself does not follow, and the command goes to
the command ring. -/
theorem addressFound_effects {portId : BitVec 8}
    (hdev : c.devmgr.findBySlot slotId = some dev)
    (h : addressFound env c portId slotId dev = .ok (err, c')) : Effects c c' := by
  obtain ⟨hslot, hdev⟩ := DeviceManager.findBySlot_eq_some hdev
  unfold addressFound at h
  dsimp only at h
  have hprepare : Device.Effects dev c.pool
      (dev.prepareAddress portId (env.portsc portId 0).portSpeed) c.pool := .of_fields rfl rfl rfl
  generalize dev.prepareAddress portId (env.portsc portId 0).portSpeed = dev₁ at h hprepare
  obtain ⟨result, hresult⟩ : ∃ result, dev₁.allocTransferRing 0 32 c.pool = result := ⟨_, rfl⟩
  rw [hresult] at h
  obtain ⟨⟨dev', pool'⟩, huse, h⟩ := bind_eq_ok.mp h
  have hring : Device.Effects dev₁ c.pool result.2.1 result.2.2 := .single (.newRing hresult)
  have hset := setDevice_effects hdev
    (hprepare.trans (hring.trans (Device.useControlRing_effects huse)))
  obtain ⟨⟨err₁, devmgr⟩, hload, h⟩ := bind_eq_ok.mp h
  obtain rfl := DeviceManager.loadDCBAA_setDevice hslot hload
  obtain ⟨c₁, hpush, h⟩ := bind_eq_ok.mp h
  cases h
  refine hset.trans (Effects.trans ?_ (pushCommand_effects hpush))
  exact .of_places ⟨rfl, rfl, rfl, rfl, ⟨rfl, rfl⟩, rfl, rfl, rfl, rfl⟩

/-- **`AddressDevice`**: the device is allocated, unless the slot is in use, and then prepared.
If no device is found afterwards, the allocation is all there was. -/
theorem addressDevice_effects {portId : BitVec 8}
    (h : addressDevice env c portId slotId = .ok (err, c')) : Effects c c' := by
  unfold addressDevice at h
  obtain ⟨⟨err₁, devmgr, pool⟩, halloc, h⟩ := bind_eq_ok.mp h
  have hdevice : Effects c { c with devmgr := devmgr, pool := pool } :=
    .single (.newDevice halloc)
  dsimp only at h
  split at h
  · cases h
    exact hdevice
  · rename_i dev hdev
    exact hdevice.trans (addressFound_effects hdev h)

/-- `InitializeDevice` moves the port to its next phase and lets the device ask for its first
descriptor. -/
theorem initializeDevice_effects {portId : BitVec 8}
    (h : initializeDevice c portId slotId = .ok (err, c')) : Effects c c' := by
  unfold initializeDevice at h
  split at h
  · cases h
    exact .refl
  · rename_i dev hfound
    obtain ⟨⟨err₁, dev'⟩, hstart, h⟩ := bind_eq_ok.mp h
    cases h
    have hphase : Effects c (c.setPhase portId .kInitializingDevice) :=
      .of_places ⟨rfl, rfl, rfl, rfl, ⟨rfl, rfl⟩, rfl, rfl, rfl, rfl⟩
    have hdev : (c.setPhase portId .kInitializingDevice).devmgr.devices slotId.toNat = some dev :=
      (DeviceManager.findBySlot_eq_some hfound).2
    exact hphase.trans (setDevice_effects hdev (Device.startInitialize_effects hstart))

/-- `CompleteConfiguration` calls `OnEndpointsConfigured` of the device, which lets the class
drivers begin, and moves the port to its last phase. -/
theorem completeConfiguration_effects {portId : BitVec 8}
    (h : completeConfiguration c portId slotId = .ok (err, c')) : Effects c c' := by
  unfold completeConfiguration at h
  split at h
  · cases h
    exact .refl
  · rename_i dev hfound
    obtain ⟨⟨err₁, dev'⟩, hconfigured, h⟩ := bind_eq_ok.mp h
    cases h
    have hset : Effects c (c.setDevice slotId dev') :=
      setDevice_effects (DeviceManager.findBySlot_eq_some hfound).2
        (Device.onEndpointsConfigured_effects hconfigured)
    exact hset.trans (.of_places ⟨rfl, rfl, rfl, rfl, ⟨rfl, rfl⟩, rfl, rfl, rfl, rfl⟩)

/-- **`ConfigureEndpoints`**: the loop over the endpoints makes a transfer ring for each of
them, all of it on the device, and a command follows. -/
theorem configureEndpoints_effects (hdev : c.devmgr.devices slotId.toNat = some dev)
    (h : configureEndpoints env c slotId dev = .ok (err, c')) : Effects c c' := by
  have hprepare : Device.Effects dev c.pool dev.prepareEndpoints c.pool :=
    .of_fields rfl rfl rfl
  rcases configureEndpoints_parts h with
    ⟨-, -, rfl⟩ | ⟨-, -, dev', pool, position, cr, hloop, hpush, rfl⟩
  · exact setDevice_effects hdev hprepare
  · have hloop := hprepare.trans (Device.configureEndpointLoop_effects _ hloop)
    refine (setDevice_effects hdev hloop).trans ?_
    exact .of_places ⟨rfl, rfl, rfl, rfl, Ring.push_place hpush, rfl, rfl, rfl, rfl⟩

/-! ## Events -/

/-- The handler of Transfer Events hands the event to the device of its slot, and configures the
endpoints when the device is ready for that. -/
theorem onTransferEvent_effects {trb : Trb}
    (h : onTransferEvent env trb c = .ok (err, c')) : Effects c c' := by
  unfold onTransferEvent at h
  dsimp only at h
  split at h
  · cases h
    exact .refl
  · rename_i dev hfound
    obtain ⟨⟨err₁, dev₁, pool⟩, hreceived, h⟩ := bind_eq_ok.mp h
    have hset : Effects c
        ({ c with pool := pool }.setDevice (Device.eventSlotId trb) dev₁) :=
      setDevice_effects (DeviceManager.findBySlot_eq_some hfound).2
        (Device.onTransferEventReceived_effects hreceived)
    dsimp only at h
    split at h
    · cases h
      exact hset
    · unfold afterTransferEvent at h
      dsimp only at h
      split at h
      · exact hset.trans (configureEndpoints_effects
          (DeviceManager.devices_setDevice_self _ _ _) h)
      · cases h
        exact hset

/-- The handler of Port Status Change Events only resets a port, or enables a slot for it;
neither draws memory. -/
theorem onPortStatusChangeEvent_effects {trb : Trb}
    (h : onPortStatusChangeEvent env trb c = .ok (err, c')) : Effects c c' := by
  unfold onPortStatusChangeEvent at h
  dsimp only at h
  split at h
  · exact resetPort_effects h
  · exact enableSlot_effects h
  · cases h
    exact .refl

/-- The hand-over after an address goes to the first port that waits, and that is a `ResetPort`.
-/
theorem handOver_effects (h : handOver env c = .ok (err, c')) : Effects c c' := by
  unfold handOver at h
  split at h
  · cases h
    exact .refl
  · exact resetPort_effects h

/-- After Address Device the next port may begin, and the device itself is initialized; both are
effects already known. -/
theorem onAddressDeviceCompleted_effects
    (h : onAddressDeviceCompleted env slotId c = .ok (err, c')) : Effects c c' := by
  unfold onAddressDeviceCompleted at h
  split at h
  · cases h
    exact .refl
  · dsimp only at h
    split at h
    · cases h
      exact .refl
    · split at h
      · cases h
        exact .refl
      · obtain ⟨⟨err₁, c₁⟩, hhand, h⟩ := bind_eq_ok.mp h
        have hfree : Effects c { c with addressingPort := 0 } :=
          .of_places ⟨rfl, rfl, rfl, rfl, ⟨rfl, rfl⟩, rfl, rfl, rfl, rfl⟩
        have hnext : Effects c c₁ := hfree.trans (handOver_effects hhand)
        dsimp only at h
        split at h
        · cases h
          exact hnext
        · exact hnext.trans (initializeDevice_effects h)

/-- The handler of Command Completion Events: one case for each of the three commands that are
waited for, and nothing for the others. -/
theorem onCommandCompletionEvent_effects {trb : Trb}
    (h : onCommandCompletionEvent env trb c = .ok (err, c')) : Effects c c' := by
  unfold onCommandCompletionEvent at h
  dsimp only at h
  split at h
  · unfold onEnableSlotCompleted at h
    split at h
    · cases h
      exact .refl
    · exact addressDevice_effects h
  · split at h
    · exact onAddressDeviceCompleted_effects h
    · split at h
      · unfold onConfigureEndpointCompleted at h
        split at h
        · cases h
          exact .refl
        · dsimp only at h
          split at h
          · cases h
            exact .refl
          · exact completeConfiguration_effects h
      · cases h
        exact .refl

/-- **`ProcessEvent`**: an event is handled, and then popped, which moves the dequeue pointer
and leaves the event ring where it is. -/
theorem processEvent_effects (h : processEvent env c = .ok (err, c')) :
    Effects c c' := by
  rcases processEvent_cases h with ⟨-, -, rfl⟩ | ⟨trb, c₁, -, -, hevent, rfl⟩
  · exact .refl
  · have hhandled : Effects c c₁ := by
      unfold onEvent EventRing.dispatch at hevent
      split at hevent
      · exact onTransferEvent_effects hevent
      · split at hevent
        · exact onPortStatusChangeEvent_effects hevent
        · split at hevent
          · exact onCommandCompletionEvent_effects hevent
          · cases hevent
            exact .refl
    have her : c₁.er = c.er := (outcome_frame (onEvent_outcome hevent)).1
    have hpop : c.er.pop.buf = c₁.er.buf ∧ c.er.pop.bufSize = c₁.er.bufSize ∧
        c.er.pop.erst = c₁.er.erst := by
      rw [her]
      unfold EventRing.pop
      dsimp only
      split
      · exact ⟨rfl, rfl, rfl⟩
      · exact ⟨rfl, rfl, rfl⟩
    exact hhandled.trans
      (.of_places ⟨rfl, rfl, rfl, rfl, ⟨rfl, rfl⟩, hpop.1, hpop.2.1, hpop.2.2, rfl⟩)

/-- **Every step** of a run. -/
theorem Step.effects {Allowed : Surroundings → Controller → Trb → Prop}
    (h : Step Allowed c c') : Effects c c' := by
  cases h with
  | configurePort _ _ hcall => exact configurePort_effects hcall
  | processEvent _ hcall => exact processEvent_effects hcall
  | hardware => exact .single (.hardware _ _ _)

/-- **The rule for runs**: what every effect does, in the sense of a reflexive and transitive
relation, a run does. -/
theorem run_induction (R : Controller → Controller → Prop) (hrefl : ∀ c, R c c)
    (htrans : ∀ {c c' c''}, R c c' → R c' c'' → R c c'') (heffect : ∀ {c c'}, Effect c c' → R c c')
    {Allowed : Surroundings → Controller → Trb → Prop} (hrun : ReflTransGen (Step Allowed) c c') :
    R c c' := by
  have hall : Effects c c' := by
    induction hrun with
    | refl => exact .refl
    | tail _ hstep ih => exact ih.trans hstep.effects
  clear hrun
  induction hall with
  | refl => exact hrefl c
  | tail _ hstep ih => exact htrans ih (heffect hstep)

end Mikanos.Xhci.Controller
