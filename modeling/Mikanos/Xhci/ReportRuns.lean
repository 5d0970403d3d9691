import Mikanos.Xhci.ControllerRuns
import Mikanos.Xhci.Initialize
import Mikanos.Xhci.ReportBuffer

/-!
# One report at a time

The invariant `Owned` of a device, carried through every event that
`ProcessEvent` can handle.  The run starts when `InitializeDevice` has started the
initialization of the device in `slotId`.  From then on its port is in one of the
last three phases, and all events but three kinds leave device and port as they
are: a Transfer Event of the slot, the completion of a Configure Endpoint command
and that of an Enable Slot command, which replaces the control ring if it names a
slot in use.
-/

namespace Mikanos.Xhci

open Relation Mikanos.Usb

namespace Device

/-- Only transfer rings and the input context have changed. -/
def Prepared (dev dev' : Device) : Prop :=
  ∃ transferRings inputContext,
    dev' = { dev with transferRings := transferRings, inputContext := inputContext }

/-- Preparing a device for a command concerns its rings and the input context, not its drivers.
-/
theorem Prepared.keepsEndpoints {dev dev' : Device} (h : Prepared dev dev') :
    KeepsEndpoints dev dev' := by
  obtain ⟨transferRings, inputContext, rfl⟩ := h
  exact .of_fields rfl rfl rfl rfl rfl rfl rfl

/-- No doorbell is rung for the device on the way. -/
theorem Prepared.doorbell {dev dev' : Device} (h : Prepared dev dev') :
    dev'.doorbell = dev.doorbell := by
  obtain ⟨transferRings, inputContext, rfl⟩ := h
  rfl

/-- No driver begins to wait for a report in a step that only prepares the device: who waits
afterwards has waited before. -/
theorem Prepared.waiting {dev dev' : Device} (h : Prepared dev dev') {p : Addr}
    (hp : dev'.Waiting p) : dev.Waiting p := by
  obtain ⟨transferRings, inputContext, rfl⟩ := h
  exact hp

/-- The preparations for a command do not concern the owner of the buffer. -/
theorem Owned.prepared {dev dev' : Device} {phase : ConfigPhase} {outstanding : List Addr}
    (h : Owned dev phase outstanding) (hprepared : Prepared dev dev') :
    Owned dev' phase outstanding :=
  h.keeps hprepared.keepsEndpoints (fun _ hq => hprepared.waiting hq) (Nat.le_refl _)

/-- The doorbell alone says what was issued. -/
theorem issued_congr {dev dev₁ dev' : Device} (h : dev'.doorbell = dev₁.doorbell) :
    issued dev dev' = issued dev dev₁ := by
  unfold issued rung
  rw [h]

end Device

namespace Controller

open Device

/-! ## The device of a slot -/

/-- `ConfigureEndpoints` prepares the device, and may move its port on. -/
theorem configureEndpoints_own {env : Surroundings} {c c' : Controller} {slotId : BitVec 8}
    {dev : Device} {err : Error} (hslot : slotId.toNat ≤ c.devmgr.maxSlots)
    (h : configureEndpoints env c slotId dev = .ok (err, c')) :
    ∃ dev', c'.devmgr.findBySlot slotId = some dev' ∧ Prepared dev dev' ∧
      (c'.portConfigPhase = c.portConfigPhase ∨
        c'.portConfigPhase = Function.update c.portConfigPhase dev.slotContext.rootHubPortNum
          .kConfiguringEndpoints) := by
  rcases configureEndpoints_parts h with
    ⟨-, -, rfl⟩ | ⟨-, -, dev', pool, position, cr, hloop, -, rfl⟩
  · exact ⟨dev.prepareEndpoints, DeviceManager.findBySlot_setDevice _ hslot, ⟨_, _, rfl⟩,
      Or.inl rfl⟩
  · obtain ⟨transferRings, inputContext, rfl⟩ := configureEndpointLoop_fields _ hloop
    exact ⟨_, DeviceManager.findBySlot_setDevice _ hslot, ⟨_, _, rfl⟩, Or.inr rfl⟩

/-- **A Transfer Event** is handled by the device, which may then be prepared for
the Configure Endpoint command. -/
theorem onTransferEvent_own {env : Surroundings} {trb : Trb} {c c' : Controller} {dev : Device}
    {err : Error} (hdev : c.devmgr.findBySlot (Device.eventSlotId trb) = some dev)
    (h : onTransferEvent env trb c = .ok (err, c')) :
    ∃ err₁ dev₁ pool₁ dev',
      dev.onTransferEventReceived env.dma env.observers c.pool trb = .ok (err₁, dev₁, pool₁) ∧
      c'.devmgr.findBySlot (Device.eventSlotId trb) = some dev' ∧ Prepared dev₁ dev' ∧
      (c'.portConfigPhase = c.portConfigPhase ∨
        (dev₁.isInitialized = true ∧
          c.portConfigPhase dev₁.slotContext.rootHubPortNum = .kInitializingDevice ∧
          c'.portConfigPhase = Function.update c.portConfigPhase dev₁.slotContext.rootHubPortNum
            .kConfiguringEndpoints)) := by
  obtain ⟨hslot, -⟩ := DeviceManager.findBySlot_eq_some hdev
  unfold onTransferEvent at h
  dsimp only at h
  rw [hdev] at h
  obtain ⟨⟨err₁, dev₁, pool₁⟩, hreceived, h⟩ := bind_eq_ok.mp h
  have hfound : (c.devmgr.setDevice (Device.eventSlotId trb) dev₁).findBySlot
      (Device.eventSlotId trb) = some dev₁ := DeviceManager.findBySlot_setDevice _ hslot
  have hsame : Prepared dev₁ dev₁ := ⟨_, _, rfl⟩
  refine ⟨err₁, dev₁, pool₁, ?_⟩
  dsimp only at h
  split at h
  · cases h
    exact ⟨dev₁, hreceived, hfound, hsame, Or.inl rfl⟩
  · unfold afterTransferEvent at h
    dsimp only at h
    split at h
    · rename_i hready
      obtain ⟨dev', hfound', hprepared, hphase⟩ := configureEndpoints_own (by exact hslot) h
      refine ⟨dev', hreceived, hfound', hprepared, ?_⟩
      rcases hphase with hphase | hphase
      · exact Or.inl hphase
      · exact Or.inr ⟨hready.1, hready.2, hphase⟩
    · cases h
      exact ⟨dev₁, hreceived, hfound, hsame, Or.inl rfl⟩

/-- `AddressDevice` for a slot in use prepares the device there once more, and puts no other in
its place. -/
theorem addressDevice_own {env : Surroundings} {c c' : Controller} {portId slotId : BitVec 8}
    {dev : Device} {err : Error} (hdev : c.devmgr.findBySlot slotId = some dev)
    (h : addressDevice env c portId slotId = .ok (err, c')) :
    ∃ dev', c'.devmgr.findBySlot slotId = some dev' ∧ Prepared dev dev' := by
  obtain ⟨hslot, hused⟩ := DeviceManager.findBySlot_eq_some hdev
  unfold addressDevice at h
  obtain ⟨⟨err₁, devmgr, pool⟩, halloc, h⟩ := bind_eq_ok.mp h
  obtain rfl : devmgr = c.devmgr := by
    rcases DeviceManager.allocDevice_cases halloc with
      ⟨-, hsame⟩ | ⟨-, hsame, -⟩ | ⟨-, hfree, -⟩
    · exact hsame
    · exact hsame
    · rw [hused] at hfree
      cases hfree
  dsimp only at h
  rw [hdev] at h
  unfold addressFound at h
  dsimp only at h
  unfold allocTransferRing at h
  generalize placeRing 32 (pool.allocArray 32 1 64 4096) = placed at h
  obtain ⟨⟨dev', pool'⟩, huse, h⟩ := bind_eq_ok.mp h
  obtain ⟨inputContext, hdev'⟩ := useControlRing_fields huse
  have hprepared : Prepared dev dev' := ⟨_, inputContext, hdev'⟩
  obtain ⟨⟨err₁, devmgr⟩, hload, h⟩ := bind_eq_ok.mp h
  obtain rfl := DeviceManager.loadDCBAA_setDevice hslot hload
  obtain ⟨c₁, hpush, h⟩ := bind_eq_ok.mp h
  cases h
  obtain ⟨position, cr, -, rfl⟩ := pushCommand_cases hpush
  exact ⟨dev', DeviceManager.findBySlot_setDevice _ hslot, hprepared⟩

/-- `CompleteConfiguration` is about the device of the slot. -/
theorem completeConfiguration_own {c c' : Controller} {portId slotId : BitVec 8} {dev : Device}
    {err : Error} (hdev : c.devmgr.findBySlot slotId = some dev)
    (h : completeConfiguration c portId slotId = .ok (err, c')) :
    ∃ err₁ dev', dev.onEndpointsConfigured = .ok (err₁, dev') ∧
      c'.devmgr.findBySlot slotId = some dev' ∧
      c'.portConfigPhase = Function.update c.portConfigPhase portId .kConfigured := by
  obtain ⟨hslot, -⟩ := DeviceManager.findBySlot_eq_some hdev
  unfold completeConfiguration at h
  rw [hdev] at h
  obtain ⟨⟨err₁, dev'⟩, hconfigured, h⟩ := bind_eq_ok.mp h
  cases h
  exact ⟨err₁, dev', hconfigured, DeviceManager.findBySlot_setDevice _ hslot, rfl⟩

/-! ## What the events are -/

/-- A Transfer Event goes to its handler. -/
theorem onEvent_transfer {env : Surroundings} {trb : Trb} {c : Controller}
    (htype : trb.trbType = transferEventType) : onEvent env trb c = onTransferEvent env trb c := by
  unfold onEvent EventRing.dispatch
  rw [if_pos htype]

/-- A Command Completion Event goes to its own. -/
theorem onEvent_command {env : Surroundings} {trb : Trb} {c : Controller}
    (htype : trb.trbType = commandCompletionEventType) :
    onEvent env trb c = onCommandCompletionEvent env trb c := by
  unfold onEvent EventRing.dispatch
  rw [if_neg (by rw [htype]; decide), if_neg (by rw [htype]; decide), if_pos htype]

/-- The completion of an Enable Slot command that is waited for. -/
theorem onEvent_enabled {env : Surroundings} {trb : Trb} {c : Controller}
    (htype : trb.trbType = commandCompletionEventType)
    (hissuer : (trbAt env c trb.pointer60).trbType = enableSlotCommandType)
    (hphase : c.portConfigPhase c.addressingPort = .kEnablingSlot) :
    onEvent env trb c = addressDevice env c c.addressingPort (eventSlotId trb) := by
  rw [onEvent_command htype]
  unfold onCommandCompletionEvent onEnableSlotCompleted
  dsimp only
  rw [if_pos hissuer, if_neg (not_not.mpr hphase)]

/-- The completion of a Configure Endpoint command that is waited for. -/
theorem onEvent_configured {env : Surroundings} {trb : Trb} {c : Controller} {dev : Device}
    (htype : trb.trbType = commandCompletionEventType)
    (hissuer : (trbAt env c trb.pointer60).trbType = configureEndpointCommandType)
    (hdev : c.devmgr.findBySlot (eventSlotId trb) = some dev)
    (hphase : c.portConfigPhase dev.slotContext.rootHubPortNum = .kConfiguringEndpoints) :
    onEvent env trb c =
      completeConfiguration c dev.slotContext.rootHubPortNum (eventSlotId trb) := by
  rw [onEvent_command htype]
  unfold onCommandCompletionEvent onConfigureEndpointCompleted
  dsimp only
  rw [if_neg (by rw [hissuer]; decide), if_neg (by rw [hissuer]; decide), if_pos hissuer, hdev]
  dsimp only
  rw [if_neg (not_not.mpr hphase)]

/-- The Transfer Event `trb` is about the device in `slotId`. -/
def Reports (slotId : BitVec 8) (trb : Trb) : Prop :=
  trb.trbType = transferEventType ∧ Device.eventSlotId trb = slotId

instance (slotId : BitVec 8) (trb : Trb) : Decidable (Reports slotId trb) :=
  inferInstanceAs (Decidable (_ ∧ _))

end Controller

/-! ## The system -/

/-- A Transfer Event the device can get: a Normal TRB is reported once, and received
data is what the device sent. -/
structure Expected (m : Dma) (dev : Device) (outstanding : List Addr) (trb : Trb) : Prop where
  once : (Device.trbAt m dev trb.parameter).trbType = normalType → trb.parameter ∈ outstanding
  received : Device.Received m dev (Device.decodeTransferEvent m dev trb).1

/-- The driver with the TRBs of the device in a slot that are outstanding, those of
the default control pipe left out. -/
structure ReportSystem where
  c : Controller
  outstanding : List Addr

namespace ReportSystem

open Device Controller

/-- What is outstanding when the driver has looked at an event. -/
def remaining (slotId : BitVec 8) (trb : Trb) (outstanding : List Addr) : List Addr :=
  if Reports slotId trb then outstanding.erase trb.parameter else outstanding

/-- A call of the driver, or a write of the controller.  Only the device in `slotId`
is at `port`. -/
inductive Step (slotId port : BitVec 8) : ReportSystem → ReportSystem → Prop
  | processEvent {env : Surroundings} {s : ReportSystem} {trb : Trb} {c' : Controller} {err : Error}
      {dev dev' : Device} (hfront : s.c.er.hasFront = .ok true) (htrb : s.c.er.front = .ok trb)
      (hdev : s.c.devmgr.findBySlot slotId = some dev)
      (hexpected : Reports slotId trb → Expected env.dma dev s.outstanding trb)
      (hcall : Controller.processEvent env s.c = .ok (err, c'))
      (hdev' : c'.devmgr.findBySlot slotId = some dev') :
      Step slotId port s ⟨c', remaining slotId trb s.outstanding ++ issued dev dev'⟩
  | configurePort {env : Surroundings} {s : ReportSystem} {c' : Controller} {other : BitVec 8}
      {err : Error} (hcall : Controller.configurePort env s.c other = .ok (err, c')) :
      Step slotId port s ⟨c', s.outstanding⟩
  | hardware {s : ReportSystem} {mem : Nat → Trb} {interrupter : InterrupterRegisterSet}
      {contexts : Nat → SlotContext}
      (hcontexts : ∀ i, (contexts i).rootHubPortNum = port ↔ i = slotId.toNat) :
      Step slotId port s ⟨s.c.hardware mem interrupter contexts, s.outstanding⟩

/-- The invariant of the system. -/
structure Inv (slotId port : BitVec 8) (s : ReportSystem) : Prop where
  nonzero : port ≠ 0
  ports : ∀ i dev, s.c.devmgr.devices i = some dev →
    (dev.slotContext.rootHubPortNum = port ↔ i = slotId.toNat)
  owned : ∃ dev, s.c.devmgr.findBySlot slotId = some dev ∧
    Owned dev (s.c.portConfigPhase port) s.outstanding

section Inv

variable {slotId port : BitVec 8} {env : Surroundings} {trb : Trb} {c c' : Controller}
  {outstanding : List Addr} {dev : Device} {err : Error}

/-- Ports that wait, are reset or addressed are others. -/
theorem Inv.elsewhere (h : Inv slotId port ⟨c, outstanding⟩) {p : BitVec 8} {phase : ConfigPhase}
    (hp : c.portConfigPhase p = phase) (hinit : phase ≠ .kInitializingDevice)
    (hconfiguring : phase ≠ .kConfiguringEndpoints) (hconfigured : phase ≠ .kConfigured) :
    port ≠ p := by
  rintro rfl
  obtain ⟨dev, -, howned⟩ := h.owned
  rcases howned.underway with hphase | hphase | hphase
  · exact hinit (hp.symm.trans hphase)
  · exact hconfiguring (hp.symm.trans hphase)
  · exact hconfigured (hp.symm.trans hphase)

/-- An event keeps the ports of all devices apart: the device of the slot is the only one that
names its port. -/
theorem Inv.ports_event (h : Inv slotId port ⟨c, outstanding⟩)
    (hcall : onEvent env trb c = .ok (err, c'))
    (i : Nat) (dev' : Device) (hdev' : c'.devmgr.devices i = some dev') :
    dev'.slotContext.rootHubPortNum = port ↔ i = slotId.toNat := by
  rcases outcome_device (onEvent_outcome hcall) hdev' with
    ⟨dev, hdev, hsame, -⟩ | ⟨hnone, hzero, -, -⟩
  · rw [hsame.slotContext]
    exact h.ports i dev hdev
  · rw [hzero]
    obtain ⟨dev, hfound, -⟩ := h.owned
    constructor
    · intro hport
      exact absurd hport.symm h.nonzero
    · rintro rfl
      rw [(DeviceManager.findBySlot_eq_some hfound).2] at hnone
      cases hnone

/-- An event that leaves the device and its port alone. -/
theorem owned_still {c' : Controller} (howned : Owned dev (c.portConfigPhase port) outstanding)
    (hdev : c'.devmgr.findBySlot slotId = some dev)
    (hphase : c'.portConfigPhase port = c.portConfigPhase port) :
    ∃ dev', c'.devmgr.findBySlot slotId = some dev' ∧
      Owned dev' (c'.portConfigPhase port) (outstanding ++ issued dev dev') := by
  refine ⟨dev, hdev, ?_⟩
  rw [hphase, issued_nil rfl, List.append_nil]
  exact howned

/-- An event that changes the device of another slot, and leaves the port alone. -/
theorem owned_elsewhere {c' : Controller} {slot : BitVec 8} {dev₁ : Device}
    (howned : Owned dev (c.portConfigPhase port) outstanding)
    (hdev : c.devmgr.findBySlot slotId = some dev) (hslot : slot ≠ slotId)
    (hfind : c'.devmgr.findBySlot slotId = (c.devmgr.setDevice slot dev₁).findBySlot slotId)
    (hphase : c'.portConfigPhase port = c.portConfigPhase port) :
    ∃ dev', c'.devmgr.findBySlot slotId = some dev' ∧
      Owned dev' (c'.portConfigPhase port) (outstanding ++ issued dev dev') := by
  refine owned_still howned ?_ hphase
  rw [hfind, DeviceManager.findBySlot_setDevice_of_ne _ _ (Ne.symm hslot), hdev]

/-- **A Transfer Event of the slot** keeps who owns the report buffer: a report replaces its
TRB, and a completion arms one at most. -/
theorem Inv.transfer (h : Inv slotId port ⟨c, outstanding⟩)
    (hdev : c.devmgr.findBySlot slotId = some dev) (hreports : Reports slotId trb)
    (hexpected : Expected env.dma dev outstanding trb)
    (hcall : onEvent env trb c = .ok (err, c')) :
    ∃ dev', c'.devmgr.findBySlot slotId = some dev' ∧
      Owned dev' (c'.portConfigPhase port)
        (outstanding.erase trb.parameter ++ issued dev dev') := by
  obtain ⟨htype, rfl⟩ := hreports
  obtain ⟨dev₀, hfound, howned⟩ := h.owned
  obtain rfl : dev₀ = dev := Option.some.inj (hfound.symm.trans hdev)
  rw [onEvent_transfer htype] at hcall
  obtain ⟨err₁, dev₁, pool₁, dev', hreceived, hfound', hprepared, hphase⟩ :=
    onTransferEvent_own hdev hcall
  have hafter := howned.event hexpected.once hexpected.received hreceived
  have hport : dev₁.slotContext.rootHubPortNum = port := by
    rw [(onTransferEventReceived_keepsSlot hreceived).slotContext]
    exact (h.ports _ _ (DeviceManager.findBySlot_eq_some hdev).2).mpr rfl
  refine ⟨dev', hfound', ?_⟩
  rw [issued_congr hprepared.doorbell]
  rcases hphase with hphase | ⟨hinit, hinitializing, hphase⟩
  · rw [hphase]
    exact hafter.prepared hprepared
  · rw [hport] at hinitializing hphase
    rw [hphase, Function.update_self]
    exact (hafter.configuring hinit hinitializing).prepared hprepared

/-- **All other events** leave device and port alone, or concern the rings of the
device, or are the completion of its Configure Endpoint command. -/
theorem Inv.other (h : Inv slotId port ⟨c, outstanding⟩)
    (hdev : c.devmgr.findBySlot slotId = some dev) (hother : ¬ Reports slotId trb)
    (hcall : onEvent env trb c = .ok (err, c')) :
    ∃ dev', c'.devmgr.findBySlot slotId = some dev' ∧
      Owned dev' (c'.portConfigPhase port) (outstanding ++ issued dev dev') := by
  obtain ⟨dev₀, hfound, howned⟩ := h.owned
  obtain rfl : dev₀ = dev := Option.some.inj (hfound.symm.trans hdev)
  have hport := h.ports _ _ (DeviceManager.findBySlot_eq_some hdev).2
  cases onEvent_outcome hcall with
  | refused => exact owned_still howned hdev rfl
  | wait _ hphase _ =>
      have hne := h.elsewhere hphase (by decide) (by decide) (by decide)
      exact owned_still howned hdev (Function.update_of_ne hne _ _)
  | reset _ hphase _ =>
      have hne := h.elsewhere hphase (by decide) (by decide) (by decide)
      exact owned_still howned hdev (Function.update_of_ne hne _ _)
  | enable _ hphase _ =>
      have hne := h.elsewhere hphase (by decide) (by decide) (by decide)
      exact owned_still howned hdev (Function.update_of_ne hne _ _)
  | noSlot => exact owned_still howned hdev rfl
  | address htype hissuer hphase =>
      have hne := h.elsewhere hphase (by decide) (by decide) (by decide)
      by_cases hslot : Controller.eventSlotId trb = slotId
      · -- the slot is in use: its control ring is replaced
        rw [onEvent_enabled htype hissuer hphase, hslot] at hcall
        obtain ⟨dev', hfound', hprepared⟩ := addressDevice_own hdev hcall
        rw [hslot]
        refine ⟨dev', hfound', ?_⟩
        rw [issued_nil hprepared.doorbell, List.append_nil]
        unfold afterAddress afterPush setPhase
        dsimp only
        rw [Function.update_of_ne hne]
        exact howned.prepared hprepared
      · exact owned_elsewhere howned hdev hslot rfl (Function.update_of_ne hne _ _)
  | addressed _ _ hdev₂ hport₂ hphase hnext _ =>
      have hne := h.elsewhere hphase (by decide) (by decide) (by decide)
      have hslot : Controller.eventSlotId trb ≠ slotId := by
        intro hslot
        rw [hslot, hdev] at hdev₂
        cases hdev₂
        exact hne ((hport.mpr rfl).symm.trans hport₂)
      rcases hnext with rfl | ⟨first, hfirst, rfl⟩
      · exact owned_elsewhere howned hdev hslot rfl (Function.update_of_ne hne _ _)
      · have hnotFirst := h.elsewhere (firstWaiting_eq_some hfirst).1 (by decide) (by decide)
          (by decide)
        refine owned_elsewhere howned hdev hslot rfl ?_
        exact (Function.update_of_ne hne _ _).trans (Function.update_of_ne hnotFirst _ _)
  | transfer htype hdev₂ =>
      have hslot : Device.eventSlotId trb ≠ slotId := fun hslot => hother ⟨htype, hslot⟩
      exact owned_elsewhere howned hdev hslot rfl rfl
  | configure htype hdev₂ hphase hsame =>
      have hslot : Device.eventSlotId trb ≠ slotId := fun hslot => hother ⟨htype, hslot⟩
      have hne : port ≠ _ := fun hport₂ => hslot (BitVec.eq_of_toNat_eq
        ((h.ports _ _ (DeviceManager.findBySlot_eq_some hdev₂).2).mp hport₂.symm))
      rw [← hsame.slotContext] at hne
      exact owned_elsewhere howned hdev hslot rfl (Function.update_of_ne hne _ _)
  | configured htype hissuer hdev₂ hphase hkeeps =>
      by_cases hslot : Controller.eventSlotId trb = slotId
      · rw [hslot, hdev] at hdev₂
        cases hdev₂
        rw [onEvent_configured htype hissuer (by rw [hslot]; exact hdev) hphase, hslot] at hcall
        obtain ⟨err₁, dev', hcompleted, hfound', hphase'⟩ := completeConfiguration_own hdev hcall
        rw [hslot]
        refine ⟨dev', hfound', ?_⟩
        rw [hphase', hport.mpr rfl, Function.update_self]
        rw [hport.mpr rfl] at hphase
        exact howned.complete hphase hcompleted
      · have hne : port ≠ _ := fun hport₂ => hslot (BitVec.eq_of_toNat_eq
          ((h.ports _ _ (DeviceManager.findBySlot_eq_some hdev₂).2).mp hport₂.symm))
        exact owned_elsewhere howned hdev hslot rfl (Function.update_of_ne hne _ _)

/-- **Every step** keeps the invariant, of the driver and of the controller, at this slot and at
the others. -/
theorem Inv.step {s s' : ReportSystem} (h : Inv slotId port s) (hstep : Step slotId port s s') :
    Inv slotId port s' := by
  obtain ⟨dev₀, hfound, howned⟩ := h.owned
  cases hstep with
  | @processEvent env s trb c' err dev dev' hfront htrb hdev hexpected hcall hdev' =>
      rcases processEvent_cases hcall with ⟨hnone, -, -⟩ | ⟨trb', c₁, -, htrb', hevent, rfl⟩
      · rw [hfront] at hnone
        cases hnone
      · obtain rfl : trb = trb' := Except.ok.inj (htrb.symm.trans htrb')
        refine ⟨h.nonzero, fun i dev₁ hdev₁ => h.ports_event hevent i dev₁ hdev₁, dev', hdev', ?_⟩
        by_cases hreports : Reports slotId trb
        · obtain ⟨dev₁, hfound₁, howned₁⟩ :=
            h.transfer hdev hreports (hexpected hreports) hevent
          obtain rfl : dev₁ = dev' := Option.some.inj (hfound₁.symm.trans hdev')
          unfold remaining
          rw [if_pos hreports]
          exact howned₁
        · obtain ⟨dev₁, hfound₁, howned₁⟩ := h.other hdev hreports hevent
          obtain rfl : dev₁ = dev' := Option.some.inj (hfound₁.symm.trans hdev')
          unfold remaining
          rw [if_neg hreports]
          exact howned₁
  | @configurePort env s c' other err hcall =>
      have hother : s.c.portConfigPhase other = .kNotConnected → port ≠ other :=
        fun hphase => h.elsewhere hphase (by decide) (by decide) (by decide)
      rcases configurePort_cases hcall with rfl | ⟨hphase, -, rfl⟩ | ⟨hphase, -, rfl⟩
      · exact h
      · refine ⟨h.nonzero, h.ports, dev₀, hfound, ?_⟩
        unfold setPhase
        dsimp only
        rw [Function.update_of_ne (hother hphase)]
        exact howned
      · refine ⟨h.nonzero, h.ports, dev₀, hfound, ?_⟩
        unfold afterReset writePortsc setPhase
        dsimp only
        rw [Function.update_of_ne (hother hphase)]
        exact howned
  | @hardware s mem interrupter contexts hcontexts =>
      refine ⟨h.nonzero, fun i dev₁ hdev₁ => ?_, { dev₀ with
        slotContext := contexts slotId.toNat }, ?_, ?_⟩
      · obtain ⟨dev₂, -, rfl⟩ := Option.map_eq_some_iff.mp hdev₁
        exact hcontexts i
      · obtain ⟨hslot, hused⟩ := DeviceManager.findBySlot_eq_some hfound
        have hwritten : (writeContexts s.c.devmgr contexts).findBySlot slotId =
            some { dev₀ with slotContext := contexts slotId.toNat } := by
          rw [DeviceManager.findBySlot_of_le (by exact hslot)]
          unfold writeContexts
          dsimp only
          rw [hused, Option.map_some]
        exact hwritten
      · exact howned.keeps (.of_fields rfl rfl rfl rfl rfl rfl rfl) (fun q hq => hq)
          (Nat.le_refl _)

end Inv

/-! ## Runs -/

/-- A device that `AddressDevice` has prepared after its construction; the controller
may have written its device context. -/
def Addressed (slotId : BitVec 8) (dev : Device) : Prop :=
  ∃ self portId speed pool pool' dev₁ slotContext,
    useControlRing (((Device.new self slotId).prepareAddress portId speed).allocTransferRing 0 32
      pool) = .ok (dev₁, pool') ∧ dev = { dev₁ with slotContext := slotContext }

/-- `InitializeDevice` has just started the initialization of the device in `slotId`,
which is the only one at `port`. -/
structure Starts (slotId port : BitVec 8) (s : ReportSystem) : Prop where
  nonzero : port ≠ 0
  ports : ∀ i dev, s.c.devmgr.devices i = some dev →
    (dev.slotContext.rootHubPortNum = port ↔ i = slotId.toNat)
  started : ∃ c dev err, Addressed slotId dev ∧ c.devmgr.findBySlot slotId = some dev ∧
    initializeDevice c port slotId = .ok (err, s.c)
  idle : s.outstanding = []

/-- **The invariant holds when the initialization begins**: a new device has no driver, and so
nothing is outstanding and nobody waits. -/
theorem Starts.inv {slotId port : BitVec 8} {s : ReportSystem} (h : Starts slotId port s) :
    Inv slotId port s := by
  obtain ⟨c, dev, err, haddressed, hdev, hcall⟩ := h.started
  obtain ⟨self, portId, speed, pool, pool', dev₁, slotContext, haddress, rfl⟩ := haddressed
  obtain ⟨hslot, -⟩ := DeviceManager.findBySlot_eq_some hdev
  unfold initializeDevice at hcall
  rw [hdev] at hcall
  obtain ⟨⟨err₁, dev'⟩, hstart, hcall⟩ := bind_eq_ok.mp hcall
  obtain ⟨-, hc⟩ := Prod.mk.inj (Except.ok.inj hcall)
  have hkeeps := address_keepsEndpoints haddress
  have hreached : Reached KeepsToItsSlots self slotId { dev₁ with slotContext := slotContext } :=
    (ReflTransGen.single (.address haddress)).tail .hardware
  have hzero : ({ dev₁ with slotContext := slotContext } : Device).initializePhase = 0 :=
    hkeeps.initializePhase
  have hstarted : Reached KeepsToItsSlots self slotId dev' := hreached.tail (.start hzero hstart)
  have hstage := hstarted.stage
  unfold startInitialize at hstart
  have hdrivers := getDescriptor_drivers hstart
  have hfields := getDescriptor_keepsEndpoints hstart
  have hnone : ∀ p d, dev'.drivers p ≠ some d := by
    intro p d hd
    rw [hdrivers] at hd
    obtain ⟨d₀, hd₀, -⟩ := hkeeps.drivers p d hd
    cases hd₀
  have hwaiting : ∀ p, ¬ dev'.Waiting p := by
    intro p hp
    obtain ⟨d, hd, -⟩ := hp
    exact hnone p d hd
  refine ⟨h.nonzero, h.ports, dev', ?_, ?_⟩
  · rw [← hc]
    exact DeviceManager.findBySlot_setDevice _ hslot
  · have hphase : s.c.portConfigPhase port = .kInitializingDevice := by
      rw [← hc]
      exact Function.update_self _ _ _
    rw [hphase, h.idle]
    constructor
    case stage => exact hstage.1
    case waiters => exact hstage.2
    case atMost => exact Nat.zero_le 1
    case armed => exact fun hne => absurd rfl hne
    case idle => exact fun _ => hwaiting
    case served => exact fun q hq => absurd hq (hwaiting q)
    case unready => exact fun _ => rfl
    case reserved => exact fun p d hd => absurd hd (hnone p d)
    case underway => exact Or.inl rfl

/-- Every state of a run has it. -/
theorem Inv.run {slotId port : BitVec 8} {s s' : ReportSystem} (h : Inv slotId port s)
    (hrun : ReflTransGen (Step slotId port) s s') : Inv slotId port s' := by
  induction hrun with
  | refl => exact h
  | tail _ hstep ih => exact ih.step hstep

/-- **The report buffer is never shared.**  In every run at most one Normal TRB is
outstanding, and none when `OnDataReceived` runs: if an event reports an interrupt
transfer, then it takes away the only one.  No transfer of a class driver escapes
`issued`. -/
theorem report_buffer_owned {slotId port : BitVec 8} {s₀ s : ReportSystem}
    (hstart : Starts slotId port s₀) (hrun : ReflTransGen (Step slotId port) s₀ s) :
    ∃ dev, s.c.devmgr.findBySlot slotId = some dev ∧
      s.outstanding.length ≤ 1 ∧
      (∀ m trb epId buf len, Expected m dev s.outstanding trb →
        (decodeTransferEvent m dev trb).1 = .interrupt epId buf len →
        trb.parameter ∈ s.outstanding ∧ s.outstanding.erase trb.parameter = []) ∧
      (∀ p d buf len err dev', dev.drivers p = some d →
        dev.interruptIn d.epInterruptIn buf len = .ok (err, dev') →
        dev' = dev ∨ (issued dev dev').length = 1) := by
  obtain ⟨dev, hfound, howned⟩ := (hstart.inv.run hrun).owned
  refine ⟨dev, hfound, howned.atMost, ?_, ?_⟩
  · intro m trb epId buf len hexpected hdecoded
    obtain ⟨hnormal, -⟩ := decodeTransferEvent_interrupt (Prod.ext hdecoded rfl)
    have hmem := hexpected.once hnormal
    refine ⟨hmem, List.eq_nil_of_length_eq_zero ?_⟩
    rw [List.length_erase_of_mem hmem]
    have hone := howned.atMost
    omega
  · intro p d buf len err dev' hd hcall
    exact interruptIn_issued (howned.reserved p d hd) hcall

/-- A port with a high-speed device, which sends `bytes`. -/
def answersWith (bytes : List (BitVec 8)) : Surroundings :=
  { portsShow (fun _ => 0xc03) with dma := bufferOf bytes }

/-- The success event of slot 1 for the TRB at `position`. -/
def successEvent (position : Addr) (residual : BitVec 24) (endpoint : BitVec 5) : Trb :=
  (((((Trb.zero.setBits 3 10 transferEventType).setBits 3 16 endpoint).setBits 3 24
    (1 : BitVec 8)).setBits 2 0 residual).setBits 2 24 (1 : BitVec 8)).setParameter position

/-- What the boot mouse and the controller report: the device descriptor, the configuration, the
ends of `SET_CONFIGURATION`, of the Configure Endpoint command and of `SET_PROTOCOL`, and the
first report of three bytes. -/
def mouseEvents : List (List (BitVec 8) × Trb) :=
  [(List.replicate 256 1, successEvent 0x2005d0 0 1),
    ((mouseConfiguration :: mouseDescriptors).flatten, successEvent 0x200600 222 1),
    ([], successEvent 0x200630 0 1),
    ([], commandCompletionEvent 0x200140 1 1),
    ([], successEvent 0x200650 0 1),
    ([0, 1, 1], successEvent 0x200ec0 0 3)]

/-- The device in slot 1 can get the event `trb` with the data `bytes`. -/
def admits (bytes : List (BitVec 8)) (dev : Device) (outstanding : List Addr) (trb : Trb) : Bool :=
  ((Device.trbAt (bufferOf bytes) dev trb.parameter).trbType != normalType ||
      outstanding.contains trb.parameter) &&
    match (decodeTransferEvent (bufferOf bytes) dev trb).1 with
    | .control _ _ len => decide (len ≤ bytes.length) &&
        (dev.initializePhase != 2 ||
          (len == 34 && bytes == (mouseConfiguration :: mouseDescriptors).flatten))
    | _ => true

/-- The test of a computed run is enough for a step of the system: an event that passes it is
one the controller may write. -/
theorem expected_of_admits {bytes : List (BitVec 8)} {dev : Device} {outstanding : List Addr}
    {trb : Trb} (h : admits bytes dev outstanding trb = true) :
    Expected (bufferOf bytes) dev outstanding trb := by
  obtain ⟨honce, hreceived⟩ := Bool.and_eq_true_iff.mp h
  constructor
  · intro hnormal
    rw [hnormal] at honce
    simpa using honce
  · split at hreceived
    · rename_i setupData buf len hdecoded
      rw [hdecoded]
      obtain ⟨hlen, hsent⟩ := Bool.and_eq_true_iff.mp hreceived
      refine ⟨of_decide_eq_true hlen, fun hanswers => ?_⟩
      rw [hanswers.2.1] at hsent
      obtain ⟨hsize, hbytes⟩ : len = 34 ∧
          bytes = (mouseConfiguration :: mouseDescriptors).flatten := by simpa using hsent
      subst hsize hbytes
      exact keepsToItsSlots_mouse
    · rename_i hother
      unfold Received
      split
      · rename_i setupData buf len hdecoded
        exact absurd hdecoded (hother setupData buf len)
      · trivial

/-- The controller reports `trb` and the driver handles it, if that is a step. -/
def handleEvent (s : ReportSystem) (bytes : List (BitVec 8)) (trb : Trb) :
    Except Fault ReportSystem := do
  let ready ← (s.c.postEvent trb).er.hasFront
  let front ← (s.c.postEvent trb).er.front
  let (_, c') ← Controller.processEvent (answersWith bytes) (s.c.postEvent trb)
  match (s.c.postEvent trb).devmgr.findBySlot 1, c'.devmgr.findBySlot 1 with
  | some dev, some dev' =>
      if ready = true ∧ admits bytes dev s.outstanding front = true then
        return ⟨c', remaining 1 front s.outstanding ++ issued dev dev'⟩
      else return s
  | _, _ => return s

/-- The controller writes an event to its ring, which is a step, and leaves the slot contexts
alone. -/
theorem postEvent_run {s : ReportSystem} (h : Inv 1 2 s) (trb : Trb) :
    Step 1 2 s ⟨s.c.postEvent trb, s.outstanding⟩ := by
  refine .hardware fun i => ?_
  obtain ⟨dev, hfound, -⟩ := h.owned
  have hused := (DeviceManager.findBySlot_eq_some hfound).2
  cases hdev : s.c.devmgr.devices i with
  | none =>
      have hne : i ≠ (1 : BitVec 8).toNat := by
        rintro rfl
        exact absurd (hused.symm.trans hdev) (by simp)
      exact iff_of_false (by decide) hne
  | some dev₂ => exact h.ports i dev₂ hdev

/-- One event of a computed run is a run of two steps: the controller writes the event, and the
driver handles it. -/
theorem handleEvent_run {s s' : ReportSystem} {bytes : List (BitVec 8)} {trb : Trb}
    (hinv : Inv 1 2 s) (h : handleEvent s bytes trb = .ok s') :
    ReflTransGen (Step 1 2) s s' := by
  unfold handleEvent at h
  obtain ⟨ready, hready, h⟩ := bind_eq_ok.mp h
  obtain ⟨front, hfront, h⟩ := bind_eq_ok.mp h
  obtain ⟨⟨err, c'⟩, hprocess, h⟩ := bind_eq_ok.mp h
  dsimp only at h
  split at h
  · rename_i dev dev' hdev hdev'
    split at h
    · rename_i hallowed
      cases h
      obtain ⟨hready', hadmits⟩ := hallowed
      rw [hready'] at hready
      exact (ReflTransGen.single (postEvent_run hinv trb)).tail
        (.processEvent hready hfront hdev (fun _ => expected_of_admits hadmits) hprocess hdev')
    · cases h
      exact .refl
  · cases h
    exact .refl

/-- The events one after the other. -/
def handleEvents (s : ReportSystem) : List (List (BitVec 8) × Trb) → Except Fault ReportSystem
  | [] => .ok s
  | event :: rest => (handleEvent s event.1 event.2).bind fun s' => handleEvents s' rest

/-- A computed run is a run, by induction over its events, so the example is one of the runs
that the theorem speaks of. -/
theorem handleEvents_run {events : List (List (BitVec 8) × Trb)} : ∀ {s s' : ReportSystem},
    Inv 1 2 s → handleEvents s events = .ok s' → ReflTransGen (Step 1 2) s s' := by
  induction events with
  | nil =>
      intro s s' hinv h
      cases h
      exact .refl
  | cons event rest ih =>
      intro s s' hinv h
      obtain ⟨s₁, hfirst, h⟩ := bind_eq_ok.mp h
      have hrun := handleEvent_run hinv hfirst
      exact hrun.trans (ih (hinv.run hrun) h)

/-- The driver after `InitializeDevice` for the device at port 2. -/
def sampleStart : Except Fault (Device × Controller) := do
  let (dev, _) ← useControlRing
    (((Device.new 0x200040 1).prepareAddress 2 3).allocTransferRing 0 32 sampleController.pool)
  let (_, c) ← initializeDevice
    (sampleController.setDevice 1 { dev with slotContext := slotContextOf 2 }) 2 1
  return (dev, c)

/-- The run of the example starts as the theorem asks for: the driver knows of no other device
than the one in slot 1. -/
theorem sampleStart_starts {dev : Device} {c : Controller} (h : sampleStart = .ok (dev, c)) :
    Starts 1 2 ⟨c, []⟩ := by
  unfold sampleStart at h
  obtain ⟨⟨dev₁, pool⟩, haddress, h⟩ := bind_eq_ok.mp h
  obtain ⟨⟨err, c₁⟩, hstart, h⟩ := bind_eq_ok.mp h
  cases h
  obtain ⟨writes, hinitialized⟩ := sampleController_initialized
  have hnew := initializeController_started rfl hinitialized
  have hslot : (1 : BitVec 8).toNat ≤ sampleController.devmgr.maxSlots := by
    rw [hnew.maxSlots]
    decide
  have hfound := DeviceManager.findBySlot_setDevice (d := sampleController.devmgr)
    { dev with slotContext := slotContextOf 2 } hslot
  refine ⟨by decide, fun i dev' hdev' => ?_, ⟨_, _, err, ?_, hfound, hstart⟩, rfl⟩
  · rcases initializeDevice_cases hstart with ⟨hnone, -, -⟩ | ⟨-, dev₁, dev₂, hfound₁, hkeeps, rfl⟩
    · exact absurd (hfound.symm.trans hnone) (by simp)
    · obtain rfl := Option.some.inj (hfound.symm.trans hfound₁)
      rcases DeviceManager.devices_setDevice_cases hdev' with ⟨rfl, rfl⟩ | ⟨hi, hold⟩
      · have hport : (slotContextOf 2).rootHubPortNum = 2 := by decide
        rw [hkeeps.slotContext]
        exact iff_of_true hport rfl
      · rcases DeviceManager.devices_setDevice_cases hold with ⟨hi', -⟩ | ⟨-, hold⟩
        · exact absurd hi' hi
        · rw [hnew.devices i] at hold
          cases hold
  · exact ⟨_, _, _, _, _, _, _, haddress, rfl⟩

/-- The boot mouse is configured and has sent its first report: the driver has asked for reports
twice, and the second request is the only one that is outstanding. -/
theorem report_buffer_owned_sample : ∃ s₀ s dev p, Starts 1 2 s₀ ∧
    ReflTransGen (Step 1 2) s₀ s ∧ s.c.devmgr.findBySlot 1 = some dev ∧
    dev.isInitialized = true ∧ dev.doorbell.count 3 = 2 ∧ s.outstanding = [p] ∧
    ∀ m trb epId buf len, Expected m dev [p] trb →
      (decodeTransferEvent m dev trb).1 = .interrupt epId buf len → trb.parameter = p := by
  have hcomputed : returns (sampleStart.bind fun start =>
      (handleEvents ⟨start.2, []⟩ mouseEvents).map fun s => (start, s)) (fun r =>
        (r.2.outstanding.length == 1) && (r.2.c.devmgr.findBySlot 1).any fun dev =>
          dev.isInitialized && dev.doorbell.count 3 == 2) = true := by decide +kernel
  obtain ⟨⟨start, s⟩, hsample, htest⟩ := exists_of_returns hcomputed
  obtain ⟨⟨dev₀, c⟩, hstart, hsample⟩ := bind_eq_ok.mp hsample
  obtain ⟨s', hevents, hpair⟩ := map_eq_ok hsample
  cases hpair
  have hstarts := sampleStart_starts hstart
  have hrun := handleEvents_run hstarts.inv hevents
  obtain ⟨hone, hany⟩ := Bool.and_eq_true_iff.mp htest
  obtain ⟨dev, hdev, htest⟩ := (Option.any_eq_true _ _).mp hany
  obtain ⟨hinitialized, hbells⟩ := Bool.and_eq_true_iff.mp htest
  obtain ⟨p, hp⟩ := List.length_eq_one_iff.mp (by simpa using hone)
  obtain ⟨dev₁, hfound, -, hnormal, -⟩ := report_buffer_owned hstarts hrun
  obtain rfl : dev₁ = dev := Option.some.inj (hfound.symm.trans hdev)
  refine ⟨_, s, dev₁, p, hstarts, hrun, hfound, hinitialized, by simpa using hbells, hp, ?_⟩
  intro m trb epId buf len hexpected hdecoded
  rw [hp] at hnormal
  exact List.mem_singleton.mp (hnormal m trb epId buf len hexpected hdecoded).1

end ReportSystem

end Mikanos.Xhci
