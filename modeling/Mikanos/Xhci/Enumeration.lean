import Mikanos.Xhci.CommandSystem

/-!
# Enumeration

With a controller that answers every command with success and never hands out a
slot twice (`Successful`), every port gets a slot and a device of its own.

Which port an Enable Slot completion belongs to is nowhere written in the event:
the handler takes `addressing_port`.  The invariant `Enumerated` is what makes
that right.  A command in flight is the one its port waits for (`awaited`), so
the port of an Enable Slot or Address Device command in flight is the one being
addressed.  A slot id is returned for one port only, and so the slot of a device
leads to its Address Device command and to the port of that.

The number of commands follows: a command belongs to a port that has a slot or
to the one being addressed, and there are eight slots.
-/

namespace Mikanos.Xhci

open Relation Mikanos.Usb Controller

namespace CommandSystem

/-- A command is answered with success, and Enable Slot with a slot id from 1 to 8
that was not returned before. -/
def Successful (s : CommandSystem) (cmd : Command) (trb : Trb) : Prop :=
  commandCompletionCode trb = successCode ∧
    (cmd.trb.trbType = enableSlotCommandType →
      1 ≤ (eventSlotId trb).toNat ∧ (eventSlotId trb).toNat ≤ 8 ∧
        eventSlotId trb ∉ s.returned.map Prod.snd)

/-- No restriction on the events. -/
abbrev AnyEvent (_ : Surroundings) (_ : Controller) (_ : Trb) : Prop := True

/-- The slot of the Address Device command `cmd` holds `dev`: until the command is
answered the device context is zero and the input context, which the command
points to, names the port of the command; then the device context does. -/
structure Holds (s : CommandSystem) (cmd : Command) (dev : Device) : Prop where
  device : s.ctl.devmgr.devices (commandSlotId cmd.trb).toNat = some dev
  slotId : dev.slotId = commandSlotId cmd.trb
  before : cmd ∈ s.unanswered → dev.slotContext.rootHubPortNum = 0 ∧ dev.inputPort = cmd.port ∧
    cmd.trb = addressDeviceCommandTRB dev.inputCtxAddr (commandSlotId cmd.trb)
  after : cmd ∉ s.unanswered → dev.slotContext.rootHubPortNum = cmd.port

/-- The invariant. -/
structure Enumerated (s : CommandSystem) : Prop where
  sound : Sound s
  awaited : ∀ cmd ∈ s.inFlight, (s.ctl.portConfigPhase cmd.port).awaitedType = some cmd.trb.trbType
  ports : (s.returned.map Prod.fst).Nodup
  slots : (s.returned.map Prod.snd).Nodup
  range : ∀ r ∈ s.returned, 1 ≤ r.2.toNat ∧ r.2.toNat ≤ 8
  returned : ∀ r ∈ s.returned, ∃ cmd ∈ s.ctl.commands, cmd.port = r.1 ∧
    cmd.trb.trbType = enableSlotCommandType ∧ cmd ∉ s.unanswered
  enabled : ∀ cmd ∈ s.ctl.commands, cmd.trb.trbType = enableSlotCommandType →
    cmd ∉ s.unanswered → cmd.port ∈ s.returned.map Prod.fst
  completion : ∀ e ∈ s.events, ∀ cmd, e.answers = some cmd →
    cmd.trb.trbType = enableSlotCommandType → (cmd.port, eventSlotId e.trb) ∈ s.returned
  owners : ∀ cmd ∈ s.ctl.commands, cmd.trb.trbType ≠ enableSlotCommandType →
    (cmd.port, commandSlotId cmd.trb) ∈ s.returned
  devices : ∀ i dev, s.ctl.devmgr.devices i = some dev → ∃ cmd ∈ s.ctl.commands,
    cmd.trb.trbType = addressDeviceCommandType ∧ i = (commandSlotId cmd.trb).toNat
  holds : ∀ cmd ∈ s.ctl.commands, cmd.trb.trbType = addressDeviceCommandType →
    ∃ dev, s.Holds cmd dev

section Counting

variable {s : CommandSystem}

/-- A command type is one of three. -/
theorem type_mem (h : Sound s) {cmd : Command} (hcmd : cmd ∈ s.ctl.commands) :
    cmd.trb.trbType ∈
      [enableSlotCommandType, addressDeviceCommandType, configureEndpointCommandType] :=
  (ConfigPhase.commandTypes_prefix _).subset (h.inOrder.type_mem hcmd)

/-- A port that waits for Enable Slot or Address Device is the one being addressed, so at most
one waits for them. -/
theorem Enumerated.addressing (h : Enumerated s) {cmd : Command} (hcmd : cmd ∈ s.inFlight)
    (htype : cmd.trb.trbType ≠ configureEndpointCommandType) :
    s.ctl.addressingPort = cmd.port := by
  have hawaited := h.awaited cmd hcmd
  have hin : (s.ctl.portConfigPhase cmd.port).IsAddressing := by
    cases hphase : s.ctl.portConfigPhase cmd.port <;> rw [hphase] at hawaited
    case kEnablingSlot => exact Or.inr (Or.inl rfl)
    case kAddressingDevice => exact Or.inr (Or.inr rfl)
    case kConfiguringEndpoints => exact absurd (Option.some.inj hawaited).symm htype
    all_goals cases hawaited
  obtain ⟨hone, hnone⟩ := (exclusive_iff s.ctl).mp h.sound.exclusive
  by_contra hne
  by_cases haddressing : s.ctl.addressingPort = 0
  · exact hnone haddressing _ hin
  · exact (hone haddressing).2 _ (Ne.symm hne) hin

/-- Every command is for a port that has got its slot, or for the port being addressed. -/
theorem Enumerated.port_mem (h : Enumerated s) {cmd : Command} (hcmd : cmd ∈ s.ctl.commands) :
    cmd.port ∈ s.ctl.addressingPort :: s.returned.map Prod.fst := by
  by_cases htype : cmd.trb.trbType = enableSlotCommandType
  · by_cases hunanswered : cmd ∈ s.unanswered
    · have haddressing := h.addressing (List.mem_append_left _ hunanswered) (by rw [htype]; decide)
      rw [haddressing]
      exact List.mem_cons_self
    · exact List.mem_cons_of_mem _ (h.enabled cmd hcmd htype hunanswered)
  · exact List.mem_cons_of_mem _ (List.mem_map_of_mem (h.owners cmd hcmd htype))

/-- Eight slot ids at most are returned: they are between 1 and the number of devices, which is
8, and no two are the same. -/
theorem Enumerated.returned_le (h : Enumerated s) : s.returned.length ≤ 8 := by
  have hnodup : ((s.returned.map Prod.snd).map BitVec.toNat).Nodup :=
    h.slots.map fun a b hab => BitVec.eq_of_toNat_eq hab
  have hsubset : (s.returned.map Prod.snd).map BitVec.toNat ⊆ List.range' 1 8 := by
    intro n hn
    obtain ⟨slot, hslot, rfl⟩ := List.mem_map.mp hn
    obtain ⟨r, hr, rfl⟩ := List.mem_map.mp hslot
    obtain ⟨hpos, hle⟩ := h.range r hr
    exact List.mem_range'_1.mpr ⟨hpos, by omega⟩
  have hlength := (hnodup.subperm hsubset).length_le
  rwa [List.length_map, List.length_map, List.length_range'] at hlength

/-- Three commands for each port with a slot and those of the port being addressed fit on the
ring of 31 slots. -/
theorem Enumerated.commands_le (h : Enumerated s) : s.ctl.commands.length ≤ 27 := by
  have hnodup : (s.ctl.commands.map fun cmd => (cmd.port, cmd.trb.trbType)).Nodup := by
    apply h.sound.inOrder.nodup.map_on
    intro cmd hcmd cmd' hcmd' hkey
    exact h.sound.inOrder.unique hcmd hcmd' (congrArg Prod.fst hkey) (congrArg Prod.snd hkey)
  have hsubset : (s.ctl.commands.map fun cmd => (cmd.port, cmd.trb.trbType)) ⊆
      (s.ctl.addressingPort :: s.returned.map Prod.fst).product
        [enableSlotCommandType, addressDeviceCommandType, configureEndpointCommandType] := by
    intro key hkey
    obtain ⟨cmd, hcmd, rfl⟩ := List.mem_map.mp hkey
    exact List.mem_product.mpr ⟨h.port_mem hcmd, type_mem h.sound hcmd⟩
  have hlength := (hnodup.subperm hsubset).length_le
  have hreturned := h.returned_le
  rw [List.length_map, List.product, List.length_flatMap] at hlength
  simp only [List.length_map, List.length_cons, List.length_nil, List.map_cons, List.map_const',
    List.sum_cons, List.sum_replicate, smul_eq_mul] at hlength
  omega

/-- Nine commands at most are in flight: one for each port with a slot, and one for the port
being addressed. -/
theorem Enumerated.inFlight_le (h : Enumerated s) : s.inFlight.length ≤ 9 := by
  have hnodup : (s.inFlight.map Command.port).Nodup := by
    apply h.sound.nodup.map_on
    intro cmd hcmd cmd' hcmd' hport
    have hsame := h.awaited cmd hcmd
    rw [hport, h.awaited cmd' hcmd'] at hsame
    exact h.sound.inOrder.unique (h.sound.pushed _ hcmd) (h.sound.pushed _ hcmd') hport
      (Option.some.inj hsame).symm
  have hsubset : s.inFlight.map Command.port ⊆
      s.ctl.addressingPort :: s.returned.map Prod.fst := by
    intro port hport
    obtain ⟨cmd, hcmd, rfl⟩ := List.mem_map.mp hport
    exact h.port_mem (h.sound.pushed _ hcmd)
  have hlength := (hnodup.subperm hsubset).length_le
  have hreturned := h.returned_le
  rw [List.length_map, List.length_cons, List.length_map] at hlength
  omega

end Counting

/-! ## Calls of the driver -/

/-- What handling an event does to a system in which the commands `kept` remain in
flight. -/
structure Handled (s : CommandSystem) (c' : Controller) (kept new : List Command) : Prop where
  commands : c'.commands = s.ctl.commands ++ new
  kept : ∀ cmd ∈ kept, (c'.portConfigPhase cmd.port).awaitedType = some cmd.trb.trbType
  awaited : ∀ cmd ∈ new, (c'.portConfigPhase cmd.port).awaitedType = some cmd.trb.trbType
  owner : ∀ cmd ∈ new, cmd.trb.trbType ≠ enableSlotCommandType →
    (cmd.port, commandSlotId cmd.trb) ∈ s.returned
  old : ∀ i dev, s.ctl.devmgr.devices i = some dev → ∃ dev', c'.devmgr.devices i = some dev' ∧
    Device.SameObject dev dev' ∧
      (dev.slotContext.rootHubPortNum = 0 → dev'.inputPort = dev.inputPort)
  fresh : ∀ i dev', c'.devmgr.devices i = some dev' → s.ctl.devmgr.devices i = none →
    ∃ cmd ∈ new, cmd.trb.trbType = addressDeviceCommandType ∧ i = (commandSlotId cmd.trb).toNat
  loaded : ∀ cmd ∈ new, cmd.trb.trbType = addressDeviceCommandType →
    ∃ dev, c'.devmgr.devices (commandSlotId cmd.trb).toNat = some dev ∧
      dev.slotId = commandSlotId cmd.trb ∧ dev.slotContext.rootHubPortNum = 0 ∧
      dev.inputPort = cmd.port ∧
      cmd.trb = addressDeviceCommandTRB dev.inputCtxAddr (commandSlotId cmd.trb)

section Calls

variable {s : CommandSystem} {env : Surroundings} {trb : Trb} {c' : Controller}

/-- Where one device has changed a little, every device of before is still there, the same
object in the same slot. -/
theorem old_setDevice {d : DeviceManager} {slotId : BitVec 8} {dev₁ dev₁' : Device}
    (hdev : d.devices slotId.toNat = some dev₁) (hsame : Device.SameObject dev₁ dev₁')
    (hinput : dev₁.slotContext.rootHubPortNum = 0 → dev₁'.inputPort = dev₁.inputPort) :
    (∀ i dev, d.devices i = some dev → ∃ dev', (d.setDevice slotId dev₁').devices i = some dev' ∧
      Device.SameObject dev dev' ∧
        (dev.slotContext.rootHubPortNum = 0 → dev'.inputPort = dev.inputPort)) ∧
    ∀ i, d.devices i = none → (d.setDevice slotId dev₁').devices i = none := by
  constructor
  · intro i dev hdev'
    by_cases hi : i = slotId.toNat
    · subst hi
      obtain rfl := Option.some.inj (hdev.symm.trans hdev')
      exact ⟨dev₁', DeviceManager.devices_setDevice_self _ _ _, hsame, hinput⟩
    · exact ⟨dev, (Function.update_of_ne hi _ _).trans hdev', .refl dev, fun _ => rfl⟩
  · intro i hnone
    have hi : i ≠ slotId.toNat := by
      rintro rfl
      rw [hnone] at hdev
      cases hdev
    exact (Function.update_of_ne hi _ _).trans hnone

/-- The event completes `cmd`, which is still on the ring. -/
theorem Enumerated.issuer_type (h : Enumerated s) (env : Surroundings) {cmd : Command}
    (hcmd : cmd ∈ s.inFlight) (hcompletes : Completes cmd trb) :
    (trbAt env s.ctl trb.pointer60).trbType = cmd.trb.trbType := by
  obtain ⟨k, hk⟩ := List.mem_iff_getElem?.mp (h.sound.pushed cmd hcmd)
  have hcommands := h.commands_le
  rw [hcompletes.pointer]
  exact h.sound.inOrder.issuer_type hk (by omega) env

/-- The command in flight that the event completes, if there is one of the port,
is the only one of the port. -/
theorem Enumerated.port_ne (h : Enumerated s) {cmd cmd' : Command} (hcmd : cmd ∈ s.inFlight)
    (hcmd' : cmd' ∈ s.inFlight) (hne : cmd' ≠ cmd) : cmd'.port ≠ cmd.port := by
  intro hport
  have hsame := h.awaited cmd' hcmd'
  rw [hport, h.awaited cmd hcmd] at hsame
  exact hne (h.sound.inOrder.unique (h.sound.pushed _ hcmd') (h.sound.pushed _ hcmd) hport
    (Option.some.inj hsame).symm)

/-- The slot of an Address Device command belongs to it alone. -/
theorem Enumerated.slot_unique (h : Enumerated s) {cmd cmd' : Command}
    (hcmd : cmd ∈ s.ctl.commands) (hcmd' : cmd' ∈ s.ctl.commands)
    (htype : cmd.trb.trbType = addressDeviceCommandType)
    (htype' : cmd'.trb.trbType = addressDeviceCommandType)
    (hslot : (commandSlotId cmd.trb).toNat = (commandSlotId cmd'.trb).toNat) : cmd = cmd' := by
  have hmem := h.owners cmd hcmd (by rw [htype]; decide)
  have hmem' := h.owners cmd' hcmd' (by rw [htype']; decide)
  have hpair := List.inj_on_of_nodup_map h.slots hmem hmem' (BitVec.eq_of_toNat_eq hslot)
  exact h.sound.inOrder.unique hcmd hcmd' (congrArg Prod.fst hpair) (htype.trans htype'.symm)

/-- A device whose context names a port was addressed for it. -/
theorem Enumerated.device_cases (h : Enumerated s) {i : Nat} {dev : Device}
    (hdev : s.ctl.devmgr.devices i = some dev) :
    ∃ cmd ∈ s.ctl.commands, cmd.trb.trbType = addressDeviceCommandType ∧
      i = (commandSlotId cmd.trb).toNat ∧ s.Holds cmd dev := by
  obtain ⟨cmd, hcmd, htype, rfl⟩ := h.devices i dev hdev
  obtain ⟨dev', hholds⟩ := h.holds cmd hcmd htype
  obtain rfl := Option.some.inj (hdev.symm.trans hholds.device)
  exact ⟨cmd, hcmd, htype, rfl, hholds⟩

/-- A device whose context names a port that waits for something has the slot that was returned
for that port. -/
theorem Enumerated.device_owner (h : Enumerated s) {i : Nat} {dev : Device}
    (hdev : s.ctl.devmgr.devices i = some dev)
    (hphase : s.ctl.portConfigPhase dev.slotContext.rootHubPortNum ≠ .kNotConnected) :
    i = dev.slotId.toNat ∧ (dev.slotContext.rootHubPortNum, dev.slotId) ∈ s.returned := by
  obtain ⟨cmd, hcmd, htype, rfl, hholds⟩ := h.device_cases hdev
  rw [hholds.slotId]
  refine ⟨rfl, ?_⟩
  by_cases hunanswered : cmd ∈ s.unanswered
  · rw [(hholds.before hunanswered).1, h.sound.zero] at hphase
    exact absurd rfl hphase
  · rw [hholds.after hunanswered]
    exact h.owners cmd hcmd (by rw [htype]; decide)

/-- A slot id is returned for one port. -/
theorem Enumerated.port_eq (h : Enumerated s) {p q slot slot' : BitVec 8}
    (hp : (p, slot) ∈ s.returned) (hq : (q, slot') ∈ s.returned) (hslot : slot = slot') : p = q :=
  congrArg Prod.fst (List.inj_on_of_nodup_map h.slots hp hq hslot)

/-- A handler that pushes nothing and replaces no device is covered, if the commands still in
flight are awaited by their ports. -/
theorem handled_of_phases {kept : List Command} (hcommands : c'.commands = s.ctl.commands)
    (hdevices : c'.devmgr.devices = s.ctl.devmgr.devices)
    (hkept : ∀ cmd ∈ kept, (c'.portConfigPhase cmd.port).awaitedType = some cmd.trb.trbType) :
    Handled s c' kept [] where
  commands := hcommands.trans (List.append_nil _).symm
  kept := hkept
  awaited := fun cmd hcmd => absurd hcmd List.not_mem_nil
  owner := fun cmd hcmd => absurd hcmd List.not_mem_nil
  old := fun i dev hdev => ⟨dev, by rw [hdevices]; exact hdev, .refl dev, fun _ => rfl⟩
  fresh := fun i dev' hdev' hnone => by
    rw [hdevices, hnone] at hdev'
    cases hdev'
  loaded := fun cmd hcmd => absurd hcmd List.not_mem_nil

/-- A handler that pushes no Address Device command and changes one device is covered, if that
device keeps its slot and port. -/
theorem handled_of_device {kept new : List Command} {slotId : BitVec 8} {dev₁ dev₁' : Device}
    (hcommands : c'.commands = s.ctl.commands ++ new)
    (hdevices : c'.devmgr.devices = (s.ctl.devmgr.setDevice slotId dev₁').devices)
    (hdev : s.ctl.devmgr.findBySlot slotId = some dev₁) (hsame : Device.SameObject dev₁ dev₁')
    (hinput : dev₁.slotContext.rootHubPortNum = 0 → dev₁'.inputPort = dev₁.inputPort)
    (hkept : ∀ cmd ∈ kept, (c'.portConfigPhase cmd.port).awaitedType = some cmd.trb.trbType)
    (hawaited : ∀ cmd ∈ new, (c'.portConfigPhase cmd.port).awaitedType = some cmd.trb.trbType)
    (howner : ∀ cmd ∈ new, (cmd.port, commandSlotId cmd.trb) ∈ s.returned)
    (htypes : ∀ cmd ∈ new, cmd.trb.trbType ≠ addressDeviceCommandType) :
    Handled s c' kept new := by
  obtain ⟨hold, hnone⟩ := old_setDevice (DeviceManager.findBySlot_eq_some hdev).2 hsame hinput
  rw [← hdevices] at hold hnone
  constructor
  case commands => exact hcommands
  case kept => exact hkept
  case awaited => exact hawaited
  case owner => exact fun cmd hcmd _ => howner cmd hcmd
  case old => exact hold
  case fresh =>
    intro i dev' hdev' hfree
    rw [hnone i hfree] at hdev'
    cases hdev'
  case loaded => exact fun cmd hcmd htype => absurd htype (htypes cmd hcmd)

/-- A handler that pushes nothing and changes one device. -/
theorem handled_of_answer {kept : List Command} {slotId : BitVec 8} {dev₁ dev₁' : Device}
    (hcommands : c'.commands = s.ctl.commands)
    (hdevices : c'.devmgr.devices = (s.ctl.devmgr.setDevice slotId dev₁').devices)
    (hdev : s.ctl.devmgr.findBySlot slotId = some dev₁) (hsame : Device.SameObject dev₁ dev₁')
    (hinput : dev₁.slotContext.rootHubPortNum = 0 → dev₁'.inputPort = dev₁.inputPort)
    (hkept : ∀ cmd ∈ kept, (c'.portConfigPhase cmd.port).awaitedType = some cmd.trb.trbType) :
    Handled s c' kept [] := by
  apply handled_of_device (hcommands.trans (List.append_nil _).symm) hdevices hdev hsame hinput
    hkept
  · exact fun cmd hcmd => absurd hcmd List.not_mem_nil
  · exact fun cmd hcmd => absurd hcmd List.not_mem_nil
  · exact fun cmd hcmd => absurd hcmd List.not_mem_nil

/-- What an Enable Slot completion leads to: a device in the returned slot, for the port being
addressed, and its Address Device command. -/
theorem Enumerated.handled_address (h : Enumerated s) {kept : List Command} {dev₀ dev : Device}
    {pool : Pool} {position : Addr} {cr : Ring}
    (hkept : ∀ cmd ∈ kept, ((s.ctl.afterAddress s.ctl.addressingPort (eventSlotId trb) dev pool
      position cr).portConfigPhase cmd.port).awaitedType = some cmd.trb.trbType)
    (hreturned : (s.ctl.addressingPort, eventSlotId trb) ∈ s.returned)
    (hphase : s.ctl.portConfigPhase s.ctl.addressingPort = .kEnablingSlot)
    (hdev : s.ctl.devmgr.devices (eventSlotId trb).toNat = some dev₀ ∨
      s.ctl.devmgr.devices (eventSlotId trb).toNat = none ∧
        ∃ self, dev₀ = Device.new self (eventSlotId trb))
    (hsame : Device.SameObject dev₀ dev) (hport : dev.inputPort = s.ctl.addressingPort) :
    Handled s (s.ctl.afterAddress s.ctl.addressingPort (eventSlotId trb) dev pool position cr) kept
      [⟨s.ctl.addressingPort, position,
        addressDeviceCommandTRB dev.inputCtxAddr (eventSlotId trb)⟩] := by
  -- The slot is empty: a device in it would have been addressed for the same port.
  have hfree : s.ctl.devmgr.devices (eventSlotId trb).toNat = none := by
    rcases hdev with hdev | ⟨hnone, -⟩
    · obtain ⟨cmd, hcmd, htype, hslot, -⟩ := h.device_cases hdev
      have howner := h.owners cmd hcmd (by rw [htype]; decide)
      have heq := h.port_eq hreturned howner (BitVec.eq_of_toNat_eq hslot)
      have hreached := h.sound.inOrder.type_mem hcmd
      rw [← heq, hphase, htype] at hreached
      exact absurd hreached (by decide)
    · exact hnone
  obtain ⟨self, rfl⟩ : ∃ self, dev₀ = Device.new self (eventSlotId trb) := by
    rcases hdev with hdev | ⟨-, hself⟩
    · rw [hfree] at hdev
      cases hdev
    · exact hself
  have hloaded : (s.ctl.afterAddress s.ctl.addressingPort (eventSlotId trb) dev pool position
      cr).devmgr.devices (eventSlotId trb).toNat = some dev :=
    DeviceManager.devices_setDevice_self _ _ _
  constructor
  case commands => rfl
  case kept => exact hkept
  case awaited =>
    intro cmd hcmd
    rw [List.mem_singleton.mp hcmd, trbType_addressDeviceCommandTRB]
    exact awaitedType_update _ _ rfl
  case owner =>
    intro cmd hcmd _
    rw [List.mem_singleton.mp hcmd, commandSlotId_addressDeviceCommandTRB]
    exact hreturned
  case old =>
    intro i dev' hdev'
    have hi : i ≠ (eventSlotId trb).toNat := by
      rintro rfl
      rw [hfree] at hdev'
      cases hdev'
    exact ⟨dev', (Function.update_of_ne hi _ _).trans hdev', .refl dev', fun _ => rfl⟩
  case fresh =>
    intro i dev' hdev' hnone
    rcases DeviceManager.devices_setDevice_cases hdev' with ⟨rfl, -⟩ | ⟨-, hold⟩
    · refine ⟨_, List.mem_singleton_self _, trbType_addressDeviceCommandTRB _ _, ?_⟩
      rw [commandSlotId_addressDeviceCommandTRB]
    · exact absurd (hnone.symm.trans hold) (by simp)
  case loaded =>
    intro cmd hcmd _
    rw [List.mem_singleton.mp hcmd, commandSlotId_addressDeviceCommandTRB]
    refine ⟨dev, hloaded, hsame.slotId, ?_, hport, rfl⟩
    rw [hsame.slotContext]
    exact rootHubPortNum_zero

/-- **Every handler** leads to such a change, if the event that is handled completes
a command in flight, or none. -/
theorem Enumerated.handled (h : Enumerated s) (houtcome : EventOutcome env trb s.ctl c')
    {kept : List Command} (hkept : ∀ cmd ∈ kept, cmd ∈ s.inFlight)
    (hcompletion : trb.trbType = commandCompletionEventType → ∃ cmd ∈ s.inFlight,
      Completes cmd trb ∧ cmd ∉ kept ∧
        (cmd.trb.trbType = enableSlotCommandType → (cmd.port, eventSlotId trb) ∈ s.returned)) :
    ∃ new, Handled s c' kept new := by
  have hawaited : ∀ cmd ∈ kept,
      (s.ctl.portConfigPhase cmd.port).awaitedType = some cmd.trb.trbType :=
    fun cmd hcmd => h.awaited cmd (hkept cmd hcmd)
  -- A port that waits for nothing has no command in flight.
  have hupdate : ∀ {port phase}, (∀ cmd ∈ kept, cmd.port ≠ port) → ∀ cmd ∈ kept,
      (Function.update s.ctl.portConfigPhase port phase cmd.port).awaitedType =
        some cmd.trb.trbType := by
    intro port phase hne cmd hcmd
    rw [Function.update_of_ne (hne cmd hcmd)]
    exact hawaited cmd hcmd
  have hidle : ∀ {port phase}, s.ctl.portConfigPhase port = phase → phase.awaitedType = none →
      ∀ cmd ∈ kept, cmd.port ≠ port := by
    rintro port phase hphase hnone cmd hcmd rfl
    have hsome := hawaited cmd hcmd
    rw [hphase, hnone] at hsome
    cases hsome
  have hothers : ∀ {cmd}, cmd ∈ s.inFlight → cmd ∉ kept → ∀ cmd' ∈ kept, cmd'.port ≠ cmd.port := by
    intro cmd hcmd hnot cmd' hcmd'
    refine h.port_ne hcmd (hkept cmd' hcmd') ?_
    rintro rfl
    exact hnot hcmd'
  cases houtcome with
  | refused => exact ⟨[], handled_of_phases rfl rfl hawaited⟩
  | noSlot => exact ⟨[], handled_of_phases rfl rfl hawaited⟩
  | wait _ hphase _ =>
      exact ⟨[], handled_of_phases rfl rfl (hupdate (hidle hphase rfl))⟩
  | reset _ hphase _ =>
      exact ⟨[], handled_of_phases rfl rfl (hupdate (hidle hphase rfl))⟩
  | @enable position cr _ hphase _ =>
      refine ⟨[_], rfl, hupdate (hidle hphase rfl), ?_, ?_, ?_, ?_, ?_⟩
      · intro cmd hcmd
        rw [List.mem_singleton.mp hcmd, trbType_enableSlotCommandTRB]
        exact awaitedType_update _ _ rfl
      · intro cmd hcmd htype
        rw [List.mem_singleton.mp hcmd, trbType_enableSlotCommandTRB] at htype
        exact absurd rfl htype
      · exact fun i dev hdev => ⟨dev, hdev, .refl dev, fun _ => rfl⟩
      · exact fun i dev' hdev' hnone => absurd (hnone.symm.trans hdev') (by simp)
      · intro cmd hcmd htype
        rw [List.mem_singleton.mp hcmd, trbType_enableSlotCommandTRB] at htype
        exact absurd htype (by decide)
  | @address dev₀ dev pool position cr htype hissuer hphase hslot hdev hsame hport hpush =>
      obtain ⟨cmd, hcmd, hcompletes, hnot, hreturned⟩ := hcompletion htype
      have hcmdType := (h.issuer_type env hcmd hcompletes).symm.trans hissuer
      have haddressing := h.addressing hcmd (by rw [hcmdType]; decide)
      have hreturned := hreturned hcmdType
      rw [← haddressing] at hreturned
      have hne := hothers hcmd hnot
      rw [← haddressing] at hne
      exact ⟨_, h.handled_address (hupdate hne) hreturned hphase hdev hsame hport⟩
  | @addressed dev dev' c₁ htype hissuer hdev hport hphase hnext hkeeps =>
      obtain ⟨cmd, hcmd, hcompletes, hnot, -⟩ := hcompletion htype
      have hcmdType := (h.issuer_type env hcmd hcompletes).symm.trans hissuer
      have haddressing := h.addressing hcmd (by rw [hcmdType]; decide)
      have hne := hothers hcmd hnot
      rw [← haddressing] at hne
      rcases hnext with rfl | ⟨port, hfirst, rfl⟩
      · exact ⟨[], handled_of_answer rfl rfl hdev hkeeps.sameObject (fun _ => hkeeps.inputPort)
          (hupdate hne)⟩
      · have hwaiting := hidle (firstWaiting_eq_some hfirst).1 rfl
        have hkept' : ∀ cmd ∈ kept, (Function.update (Function.update s.ctl.portConfigPhase port
            .kResettingPort) s.ctl.addressingPort .kInitializingDevice cmd.port).awaitedType =
              some cmd.trb.trbType := by
          intro cmd hcmd
          rw [Function.update_of_ne (hne cmd hcmd)]
          exact hupdate hwaiting cmd hcmd
        exact ⟨[], handled_of_answer rfl rfl hdev hkeeps.sameObject (fun _ => hkeeps.inputPort)
          hkept'⟩
  | @transfer dev dev' pool htype hdev hsame hinput =>
      refine ⟨[], handled_of_answer rfl rfl hdev hsame (fun hroot => ?_) hawaited⟩
      rcases hinput with hinput | ⟨hphase, -⟩
      · exact hinput
      · rw [hroot, h.sound.zero] at hphase
        cases hphase
  | @configure dev dev' pool position cr htype hdev hphase hsame hinput hpush =>
      have hroot : dev.slotContext.rootHubPortNum ≠ 0 := by
        intro hroot
        rw [hroot, h.sound.zero] at hphase
        cases hphase
      obtain ⟨-, hslot⟩ := h.device_owner (DeviceManager.findBySlot_eq_some hdev).2
        (by rw [hphase]; decide)
      rw [← hsame.slotContext] at hphase hslot
      rw [← hsame.slotId] at hslot
      refine ⟨[⟨dev'.slotContext.rootHubPortNum, position, _⟩],
        handled_of_device rfl rfl hdev hsame (fun h0 => absurd h0 hroot)
          (hupdate (hidle hphase rfl)) ?_ ?_ ?_⟩
      · intro cmd hcmd
        rw [List.mem_singleton.mp hcmd, trbType_configureEndpointCommandTRB]
        exact awaitedType_update _ _ rfl
      · intro cmd hcmd
        rw [List.mem_singleton.mp hcmd, commandSlotId_configureEndpointCommandTRB]
        exact hslot
      · intro cmd hcmd
        rw [List.mem_singleton.mp hcmd, trbType_configureEndpointCommandTRB]
        decide
  | @configured dev dev' htype hissuer hdev hphase hkeeps =>
      obtain ⟨cmd, hcmd, hcompletes, hnot, -⟩ := hcompletion htype
      have hcmdType := (h.issuer_type env hcmd hcompletes).symm.trans hissuer
      have hnotEnable : cmd.trb.trbType ≠ enableSlotCommandType := by
        rw [hcmdType]
        decide
      have howner := h.owners cmd (h.sound.pushed cmd hcmd) hnotEnable
      obtain ⟨hslot, hroot⟩ := h.device_owner (DeviceManager.findBySlot_eq_some hdev).2
        (by rw [hphase]; decide)
      rw [hcompletes.slot hnotEnable] at hslot
      have heq := h.port_eq hroot howner (BitVec.eq_of_toNat_eq hslot.symm)
      have hne := hothers hcmd hnot
      rw [← heq] at hne
      exact ⟨[], handled_of_answer rfl rfl hdev hkeeps.sameObject (fun _ => hkeeps.inputPort)
        (hupdate hne)⟩

end Calls

section Preservation

variable {s s' : CommandSystem}

/-- A call of the driver, from what its handler did: the invariant holds of the devices, the
commands and the ports afterwards, part by part. -/
theorem Enumerated.call (h : Enumerated s) {c' : Controller} {er : EventRing}
    {events : List Event} {new : List Command}
    (hsound : Sound (s.afterCall { c' with er := er } events))
    (hevents : events.Sublist s.events)
    (hhandled : Handled s c' (s.unanswered ++ events.filterMap Event.answers) new) :
    Enumerated (s.afterCall { c' with er := er } events) := by
  have hunanswered := unanswered_afterCall er events hhandled.commands
  -- A command that was pushed before is unanswered now if it was then.
  have hdisjoint : ∀ cmd ∈ s.ctl.commands, cmd ∉ new := by
    have hnodup : c'.commands.Nodup := hsound.inOrder.nodup
    rw [hhandled.commands] at hnodup
    exact fun cmd hcmd hnew => List.disjoint_of_nodup_append hnodup hcmd hnew
  have hstill : ∀ cmd ∈ s.ctl.commands,
      (cmd ∈ (s.afterCall { c' with er := er } events).unanswered ↔ cmd ∈ s.unanswered) := by
    intro cmd hcmd
    rw [hunanswered, List.mem_append]
    exact or_iff_left (hdisjoint cmd hcmd)
  have hcases : ∀ cmd ∈ (s.afterCall { c' with er := er } events).ctl.commands,
      cmd ∈ s.ctl.commands ∨ cmd ∈ new := by
    intro cmd hcmd
    change cmd ∈ c'.commands at hcmd
    rw [hhandled.commands] at hcmd
    exact List.mem_append.mp hcmd
  have hold : ∀ cmd ∈ s.ctl.commands,
      cmd ∈ (s.afterCall { c' with er := er } events).ctl.commands := by
    intro cmd hcmd
    show cmd ∈ c'.commands
    rw [hhandled.commands]
    exact List.mem_append_left _ hcmd
  constructor
  case sound => exact hsound
  case awaited =>
    intro cmd hcmd
    rw [inFlight_afterCall er events hhandled.commands] at hcmd
    rcases List.mem_append.mp hcmd with hcmd | hcmd
    · rcases List.mem_append.mp hcmd with hcmd | hcmd
      · exact hhandled.kept cmd (List.mem_append_left _ hcmd)
      · exact hhandled.awaited cmd hcmd
    · exact hhandled.kept cmd (List.mem_append_right _ hcmd)
  case ports => exact h.ports
  case slots => exact h.slots
  case range => exact h.range
  case returned =>
    intro r hr
    obtain ⟨cmd, hcmd, hport, htype, hanswered⟩ := h.returned r hr
    exact ⟨cmd, hold cmd hcmd, hport, htype, fun hmem => hanswered ((hstill cmd hcmd).mp hmem)⟩
  case enabled =>
    intro cmd hcmd htype hanswered
    rcases hcases cmd hcmd with hcmd | hcmd
    · exact h.enabled cmd hcmd htype fun hmem => hanswered ((hstill cmd hcmd).mpr hmem)
    · rw [hunanswered] at hanswered
      exact absurd (List.mem_append_right _ hcmd) hanswered
  case completion => exact fun e he => h.completion e (hevents.subset he)
  case owners =>
    intro cmd hcmd htype
    rcases hcases cmd hcmd with hcmd | hcmd
    · exact h.owners cmd hcmd htype
    · exact hhandled.owner cmd hcmd htype
  case devices =>
    intro i dev' hdev'
    cases hbefore : s.ctl.devmgr.devices i with
    | none =>
        obtain ⟨cmd, hcmd, htype, hslot⟩ := hhandled.fresh i dev' hdev' hbefore
        refine ⟨cmd, ?_, htype, hslot⟩
        show cmd ∈ c'.commands
        rw [hhandled.commands]
        exact List.mem_append_right _ hcmd
    | some dev =>
        obtain ⟨cmd, hcmd, htype, hslot⟩ := h.devices i dev hbefore
        exact ⟨cmd, hold cmd hcmd, htype, hslot⟩
  case holds =>
    intro cmd hcmd htype
    rcases hcases cmd hcmd with hcmd | hcmd
    · obtain ⟨dev, hholds⟩ := h.holds cmd hcmd htype
      obtain ⟨dev', hdev', hsame, hinput⟩ := hhandled.old _ dev hholds.device
      refine ⟨dev', hdev', hsame.slotId.trans hholds.slotId, fun hmem => ?_, fun hanswered => ?_⟩
      · obtain ⟨hroot, hport, htrb⟩ := hholds.before ((hstill cmd hcmd).mp hmem)
        refine ⟨?_, (hinput hroot).trans hport, ?_⟩
        · rw [hsame.slotContext, hroot]
        · rw [Device.inputCtxAddr, hsame.self, ← Device.inputCtxAddr]
          exact htrb
      · rw [hsame.slotContext]
        exact hholds.after fun hmem => hanswered ((hstill cmd hcmd).mpr hmem)
    · obtain ⟨dev, hdev, hslotId, hroot, hport, htrb⟩ := hhandled.loaded cmd hcmd htype
      refine ⟨dev, hdev, hslotId, fun _ => ⟨hroot, hport, htrb⟩, fun hanswered => ?_⟩
      rw [hunanswered] at hanswered
      exact absurd (List.mem_append_right _ hcmd) hanswered

/-- A call of the driver, `ConfigurePort` or `ProcessEvent`, keeps the invariant, outcome by
outcome. -/
theorem Enumerated.called (h : Enumerated s) (hcalled : Called AnyEvent s s') : Enumerated s' := by
  have hsound := h.sound.called hcalled
  cases hcalled with
  | nothing => exact h
  | @port env trb c' htype hport houtcome =>
      have hother : trb.trbType ≠ commandCompletionEventType := by
        rw [htype]
        decide
      have her := (outcome_frame houtcome).1
      have hkept : ∀ cmd ∈ s.unanswered ++ s.events.filterMap Event.answers, cmd ∈ s.inFlight :=
        fun _ hcmd => hcmd
      obtain ⟨new, hhandled⟩ := h.handled houtcome hkept
        fun hcompletion => absurd hcompletion hother
      have hself : s.afterCall c' s.events = s.afterCall { c' with er := s.ctl.er } s.events := by
        rw [← her]
      rw [hself] at hsound ⊢
      exact h.call hsound (List.Sublist.refl _) hhandled
  | @event env e rest c' hevents hallowed houtcome =>
      have hmem : e ∈ s.events := by
        rw [hevents]
        exact List.mem_cons_self
      have hflight : s.inFlight = s.unanswered ++
          (e.answers.toList ++ rest.filterMap Event.answers) := by
        rw [inFlight, hevents, List.filterMap_cons]
        cases e.answers <;> rfl
      have hkept : ∀ cmd ∈ s.unanswered ++ rest.filterMap Event.answers, cmd ∈ s.inFlight := by
        intro cmd hcmd
        rw [hflight]
        rcases List.mem_append.mp hcmd with hcmd | hcmd
        · exact List.mem_append_left _ hcmd
        · exact List.mem_append_right _ (List.mem_append_right _ hcmd)
      have hcompletion : e.trb.trbType = commandCompletionEventType → ∃ cmd ∈ s.inFlight,
          Completes cmd e.trb ∧ cmd ∉ s.unanswered ++ rest.filterMap Event.answers ∧
            (cmd.trb.trbType = enableSlotCommandType →
              (cmd.port, eventSlotId e.trb) ∈ s.returned) := by
        intro htype
        obtain ⟨cmd, hanswers⟩ := h.sound.answered e hmem htype
        have hnodup := h.sound.nodup
        rw [hflight, hanswers, Option.toList_some, List.singleton_append] at hnodup
        refine ⟨cmd, ?_, h.sound.completes e hmem cmd hanswers, ?_,
          h.completion e hmem cmd hanswers⟩
        · rw [hflight, hanswers]
          exact List.mem_append_right _ (List.mem_append_left _ (List.mem_singleton_self _))
        · exact (List.nodup_cons.mp (List.perm_middle.nodup_iff.mp hnodup)).1
      obtain ⟨new, hhandled⟩ := h.handled houtcome hkept hcompletion
      refine h.call hsound ?_ hhandled
      rw [hevents]
      exact List.sublist_cons_self e rest

/-- The controller writes memory and may report something that completes no command; the
invariant does not look at either. -/
theorem Enumerated.reported (h : Enumerated s) {mem : Nat → Trb}
    {interrupter : InterrupterRegisterSet} {contexts : Nat → SlotContext} (hsound : Sound s')
    (hctl : s'.ctl = s.ctl.hardware mem interrupter contexts)
    (hunanswered : s'.unanswered = s.unanswered) (hreturned : s'.returned = s.returned)
    (hanswers : s'.events.filterMap Event.answers = s.events.filterMap Event.answers)
    (hevents : ∀ e ∈ s'.events, e ∈ s.events ∨ e.answers = none)
    (hroots : Roots s.ctl contexts fun _ dev => dev.slotContext.rootHubPortNum) :
    Enumerated s' := by
  have hcommands : s'.ctl.commands = s.ctl.commands := by
    rw [hctl]
    rfl
  have hphases : s'.ctl.portConfigPhase = s.ctl.portConfigPhase := by
    rw [hctl]
    rfl
  have hdevices : s'.ctl.devmgr.devices = fun i => (s.ctl.devmgr.devices i).map fun dev =>
      { dev with slotContext := contexts i } := by
    rw [hctl]
    rfl
  constructor
  case sound => exact hsound
  case awaited =>
    rw [inFlight, hunanswered, hanswers, hphases]
    exact h.awaited
  case ports => rw [hreturned]; exact h.ports
  case slots => rw [hreturned]; exact h.slots
  case range => rw [hreturned]; exact h.range
  case returned => rw [hreturned, hcommands, hunanswered]; exact h.returned
  case enabled => rw [hreturned, hcommands, hunanswered]; exact h.enabled
  case completion =>
    intro e he cmd hcmd
    rw [hreturned]
    rcases hevents e he with he | hnone
    · exact h.completion e he cmd hcmd
    · rw [hnone] at hcmd
      cases hcmd
  case owners => rw [hreturned, hcommands]; exact h.owners
  case devices =>
    intro i dev' hdev'
    rw [hdevices] at hdev'
    obtain ⟨dev, hdev, -⟩ := Option.map_eq_some_iff.mp hdev'
    rw [hcommands]
    exact h.devices i dev hdev
  case holds =>
    intro cmd hcmd htype
    rw [hcommands] at hcmd
    obtain ⟨dev, hholds⟩ := h.holds cmd hcmd htype
    have hroot := hroots _ dev hholds.device
    refine ⟨{ dev with slotContext := contexts (commandSlotId cmd.trb).toNat }, ?_, hholds.slotId,
      fun hmem => ?_, fun hanswered => ?_⟩
    · rw [hdevices]
      exact Option.map_eq_some_iff.mpr ⟨dev, hholds.device, rfl⟩
    · rw [hunanswered] at hmem
      obtain ⟨hzero, hrest⟩ := hholds.before hmem
      exact ⟨hroot.trans hzero, hrest⟩
    · rw [hunanswered] at hanswered
      exact hroot.trans (hholds.after hanswered)

/-- A success leaves the slot of an Address Device command what it should be: if
the command is the one that was answered, the controller copies the input
context, which named the port. -/
theorem Enumerated.holds_answer (h : Enumerated s) {before after : List Command}
    {cmd cmd' : Command} {trb : Trb} {mem : Nat → Trb} {interrupter : InterrupterRegisterSet}
    {contexts : Nat → SlotContext} {dev : Device}
    (hunanswered : s.unanswered = before ++ cmd :: after)
    (hcode : commandCompletionCode trb = successCode)
    (hroots : Roots s.ctl contexts (rootAfter cmd trb)) (hcmd' : cmd' ∈ s.ctl.commands)
    (htype : cmd'.trb.trbType = addressDeviceCommandType) (hholds : s.Holds cmd' dev) :
    ((s.afterHardware mem interrupter contexts).afterAnswer before after cmd trb).Holds cmd'
      { dev with slotContext := contexts (commandSlotId cmd'.trb).toNat } := by
  have hmem : cmd ∈ s.unanswered := by
    rw [hunanswered]
    exact List.mem_append_right _ List.mem_cons_self
  have hpushed := h.sound.pushed cmd (List.mem_append_left _ hmem)
  have hstill := h.sound.mem_rest hunanswered
  have hroot := hroots _ dev hholds.device
  constructor
  case device => exact Option.map_eq_some_iff.mpr ⟨dev, hholds.device, rfl⟩
  case slotId => exact hholds.slotId
  case before =>
    intro hmem'
    obtain ⟨hmem', hne⟩ := (hstill cmd').mp hmem'
    obtain ⟨hzero, hrest⟩ := hholds.before hmem'
    refine ⟨?_, hrest⟩
    rw [rootAfter, if_neg fun hcopies =>
      hne (h.slot_unique hcmd' hpushed htype hcopies.1 hcopies.2.2)] at hroot
    exact hroot.trans hzero
  case after =>
    intro hanswered
    by_cases heq : cmd' = cmd
    · subst heq
      rw [rootAfter, if_pos ⟨htype, hcode, rfl⟩] at hroot
      exact hroot.trans (hholds.before hmem).2.1
    · rw [rootAfter, if_neg fun hcopies =>
        heq (h.slot_unique hcmd' hpushed htype hcopies.1 hcopies.2.2)] at hroot
      exact hroot.trans (hholds.after fun hmem' => hanswered ((hstill cmd').mpr ⟨hmem', heq⟩))

/-- The controller answers a command with success: an Enable Slot gets a slot id that is not in
use, and an addressed device the port it is at. -/
theorem Enumerated.answer (h : Enumerated s) {before after : List Command} {cmd : Command}
    {trb : Trb} {mem : Nat → Trb} {interrupter : InterrupterRegisterSet}
    {contexts : Nat → SlotContext} (hunanswered : s.unanswered = before ++ cmd :: after)
    (hanswers : Successful s cmd trb) (hroots : Roots s.ctl contexts (rootAfter cmd trb))
    (hsound : Sound ((s.afterHardware mem interrupter contexts).afterAnswer before after cmd trb)) :
    Enumerated ((s.afterHardware mem interrupter contexts).afterAnswer before after cmd trb) := by
  obtain ⟨hcode, hslots⟩ := hanswers
  have hperm := inFlight_afterAnswer (s := s.afterHardware mem interrupter contexts) trb
    hunanswered
  have hmem : cmd ∈ s.unanswered := by
    rw [hunanswered]
    exact List.mem_append_right _ List.mem_cons_self
  have hpushed := h.sound.pushed cmd (List.mem_append_left _ hmem)
  have hstill := h.sound.mem_rest hunanswered
  have hnot : cmd ∉ before ++ after := fun hcmd => ((hstill cmd).mp hcmd).2 rfl
  have hreturned : ∀ r, r ∈ ((s.afterHardware mem interrupter contexts).afterAnswer before after
      cmd trb).returned ↔ r ∈ s.returned ∨
        (cmd.trb.trbType = enableSlotCommandType ∧ r = (cmd.port, eventSlotId trb)) := by
    intro r
    show r ∈ s.returned ++ _ ↔ _
    rw [List.mem_append]
    split
    · rename_i htype
      simp [htype]
    · rename_i htype
      simp [htype]
  have hfresh : cmd.trb.trbType = enableSlotCommandType → cmd.port ∉ s.returned.map Prod.fst := by
    intro htype hport
    obtain ⟨r, hr, hport⟩ := List.mem_map.mp hport
    obtain ⟨cmd', hcmd', hport', htype', hanswered⟩ := h.returned r hr
    obtain rfl := h.sound.inOrder.unique hcmd' hpushed (hport'.trans hport)
      (htype'.trans htype.symm)
    exact hanswered hmem
  constructor
  case sound => exact hsound
  case awaited => exact fun cmd' hcmd' => h.awaited cmd' (hperm.mem_iff.mp hcmd')
  case ports =>
    show ((s.returned ++ _).map Prod.fst).Nodup
    split
    · rename_i htype
      rw [List.map_append, List.map_singleton, ← List.concat_eq_append]
      exact h.ports.concat (hfresh htype)
    · rw [List.append_nil]
      exact h.ports
  case slots =>
    show ((s.returned ++ _).map Prod.snd).Nodup
    split
    · rename_i htype
      rw [List.map_append, List.map_singleton, ← List.concat_eq_append]
      exact h.slots.concat (hslots htype).2.2
    · rw [List.append_nil]
      exact h.slots
  case range =>
    intro r hr
    rcases (hreturned r).mp hr with hr | ⟨htype, rfl⟩
    · exact h.range r hr
    · exact ⟨(hslots htype).1, (hslots htype).2.1⟩
  case returned =>
    intro r hr
    rcases (hreturned r).mp hr with hr | ⟨htype, rfl⟩
    · obtain ⟨cmd', hcmd', hport, htype, hanswered⟩ := h.returned r hr
      exact ⟨cmd', hcmd', hport, htype, fun hmem' => hanswered ((hstill cmd').mp hmem').1⟩
    · exact ⟨cmd, hpushed, rfl, htype, hnot⟩
  case enabled =>
    intro cmd' hcmd' htype hanswered
    by_cases heq : cmd' = cmd
    · rw [heq] at htype ⊢
      exact List.mem_map_of_mem (f := Prod.fst) ((hreturned _).mpr (Or.inr ⟨htype, rfl⟩))
    · have hport := h.enabled cmd' hcmd' htype fun hmem' =>
        hanswered ((hstill cmd').mpr ⟨hmem', heq⟩)
      obtain ⟨r, hr, hport⟩ := List.mem_map.mp hport
      exact List.mem_map.mpr ⟨r, (hreturned r).mpr (Or.inl hr), hport⟩
  case completion =>
    refine forall_mem_snoc (fun e he cmd' hcmd' htype => ?_) fun cmd' hcmd' htype => ?_
    · exact (hreturned _).mpr (Or.inl (h.completion e he cmd' hcmd' htype))
    · cases hcmd'
      exact (hreturned _).mpr (Or.inr ⟨htype, rfl⟩)
  case owners =>
    intro cmd' hcmd' htype
    exact (hreturned _).mpr (Or.inl (h.owners cmd' hcmd' htype))
  case devices =>
    intro i dev' hdev'
    obtain ⟨dev, hdev, -⟩ := Option.map_eq_some_iff.mp hdev'
    exact h.devices i dev hdev
  case holds =>
    intro cmd' hcmd' htype
    obtain ⟨dev, hholds⟩ := h.holds cmd' hcmd' htype
    exact ⟨_, h.holds_answer hunanswered hcode hroots hcmd' htype hholds⟩

/-- **Step lemma.** A step of the driver or of a controller that answers with success keeps the
invariant. -/
theorem Enumerated.step (h : Enumerated s) (hstep : Step Successful AnyEvent s s') :
    Enumerated s' := by
  have hsound := h.sound.step hstep
  cases hstep with
  | configurePort hpos _ hcall =>
      have hcalled : Called AnyEvent s _ := called_of_configurePort hpos hcall
      exact h.called hcalled
  | processEvent hallowed hcall =>
      exact h.called (called_of_processEvent h.sound.shows hallowed hcall)
  | @report _ trb mem interrupter contexts _ _ hroots _ =>
      refine h.reported hsound rfl rfl rfl ?_ ?_ hroots
      · show (s.events ++ [Event.mk trb none]).filterMap Event.answers = _
        rw [List.filterMap_append]
        exact List.append_nil _
      · exact forall_mem_snoc (fun e he => Or.inl he) (Or.inr rfl)
  | answer hunanswered _ hanswers hroots _ => exact h.answer hunanswered hanswers hroots hsound
  | background hroots _ =>
      exact h.reported hsound rfl rfl rfl rfl (fun e he => Or.inl he) hroots

/-- **Run lemma.** -/
theorem Enumerated.run (h : Enumerated s) (hrun : ReflTransGen (Step Successful AnyEvent) s s') :
    Enumerated s' := by
  induction hrun with
  | refl => exact h
  | tail _ hstep ih => exact ih.step hstep

/-- The system after `Initialize` satisfies the invariant: no slot is returned, no device is
there and no port is being addressed. -/
theorem enumerated_start {maxPorts : BitVec 8} {pool : Pool} {c : Controller}
    (h : Started (Controller.new maxPorts pool) c) : Enumerated (start c) where
  sound := sound_start h
  awaited := fun cmd hcmd => by cases hcmd
  ports := List.nodup_nil
  slots := List.nodup_nil
  range := fun r hr => by cases hr
  returned := fun r hr => by cases hr
  enabled := fun cmd hcmd => by
    rw [start, h.commands] at hcmd
    cases hcmd
  completion := fun e he => by cases he
  owners := fun cmd hcmd => by
    rw [start, h.commands] at hcmd
    cases hcmd
  devices := fun i dev hdev => by
    rw [start, h.devices] at hdev
    cases hdev
  holds := fun cmd hcmd => by
    rw [start, h.commands] at hcmd
    cases hcmd

end Preservation

/-- The device in slot `i` has been addressed: the Address Device command for the
slot is answered. -/
def Addressed (s : CommandSystem) (i : Nat) (dev : Device) : Prop :=
  s.ctl.devmgr.devices i = some dev ∧ ∃ cmd ∈ s.ctl.commands,
    cmd.trb.trbType = addressDeviceCommandType ∧ (commandSlotId cmd.trb).toNat = i ∧
      cmd ∉ s.unanswered

/-- **Every port gets its own slot and device.**  In every run of the driver from
`Initialize`, with a controller that answers with success:

* a port's commands are Enable Slot, Address Device and Configure Endpoint, each
  once and in this order;
* an Address Device command is for the slot that the port's Enable Slot returned,
  and the input context it points to names the port;
* two addressed devices have different root hub port numbers;
* at most nine commands are unanswered, and every command in flight is still on
  the command ring. -/
theorem enumeration {hw : PowerOn} {maxPorts : BitVec 8} {pool : Pool} {c : Controller}
    {writes : List RegisterWrite} {s : CommandSystem}
    (hinit : initializeController hw (Controller.new maxPorts pool) = .ok (.kSuccess, c, writes))
    (hrun : ReflTransGen (Step Successful AnyEvent) (start c) s) :
    (∀ p, s.ctl.commandTypes p <+:
      [enableSlotCommandType, addressDeviceCommandType, configureEndpointCommandType]) ∧
    (∀ cmd ∈ s.ctl.commands, cmd.trb.trbType = addressDeviceCommandType →
      (cmd.port, commandSlotId cmd.trb) ∈ s.returned) ∧
    (∀ cmd ∈ s.unanswered, cmd.trb.trbType = addressDeviceCommandType →
      ∃ dev, s.ctl.devmgr.devices (commandSlotId cmd.trb).toNat = some dev ∧
        cmd.trb = addressDeviceCommandTRB dev.inputCtxAddr (commandSlotId cmd.trb) ∧
        dev.inputPort = cmd.port) ∧
    (∀ i j dev dev', s.Addressed i dev → s.Addressed j dev' →
      dev.slotContext.rootHubPortNum = dev'.slotContext.rootHubPortNum → i = j) ∧
    s.unanswered.length ≤ 9 ∧
    ∀ env, ∀ cmd ∈ s.inFlight,
      (trbAt env s.ctl cmd.position).stamp false = cmd.trb.stamp false := by
  have h := (enumerated_start (initializeController_started rfl hinit)).run hrun
  refine ⟨fun p => ?_, fun cmd hcmd htype => ?_, fun cmd hcmd htype => ?_, ?_, ?_, ?_⟩
  · rw [h.sound.inOrder.types]
    exact ConfigPhase.commandTypes_prefix _
  · exact h.owners cmd hcmd (by rw [htype]; decide)
  · have hpushed := h.sound.pushed cmd (List.mem_append_left _ hcmd)
    obtain ⟨dev, hholds⟩ := h.holds cmd hpushed htype
    obtain ⟨-, hport, htrb⟩ := hholds.before hcmd
    exact ⟨dev, hholds.device, htrb, hport⟩
  · rintro i j dev dev' ⟨hdev, cmd, hcmd, htype, rfl, hanswered⟩
      ⟨hdev', cmd', hcmd', htype', rfl, hanswered'⟩ hroot
    obtain ⟨dev₁, hholds⟩ := h.holds cmd hcmd htype
    obtain ⟨dev₂, hholds'⟩ := h.holds cmd' hcmd' htype'
    obtain rfl := Option.some.inj (hdev.symm.trans hholds.device)
    obtain rfl := Option.some.inj (hdev'.symm.trans hholds'.device)
    rw [hholds.after hanswered, hholds'.after hanswered'] at hroot
    rw [h.sound.inOrder.unique hcmd hcmd' hroot (htype.trans htype'.symm)]
  · have hle := h.inFlight_le
    rw [inFlight, List.length_append] at hle
    omega
  · intro env cmd hcmd
    obtain ⟨k, hk⟩ := List.mem_iff_getElem?.mp (h.sound.pushed cmd hcmd)
    have hcommands := h.commands_le
    exact h.sound.inOrder.trbAt_position hk (by omega) env

instance (s : CommandSystem) (cmd : Command) (trb : Trb) : Decidable (Successful s cmd trb) :=
  inferInstanceAs (Decidable (_ ∧ (_ → _)))

/-- Ports 1 and 2 are connected; they get slots 5 and 3. -/
def addressTwoPorts : List Action :=
  [.configurePort (portsShow fun _ => 1) 1, .configurePort (portsShow fun _ => 1) 2,
    .report (portStatusChangeEvent 1), .processEvent (portsShow fun _ => 0x200003),
    .answer 0 (commandCompletionEvent (sampleController.cr.slotAddr 0) successCode 5),
    .processEvent (portsShow fun _ => 0x200003),
    .answer 0 (commandCompletionEvent (sampleController.cr.slotAddr 1) successCode 5),
    .processEvent (portsShow fun _ => 1),
    .report (portStatusChangeEvent 2), .processEvent (portsShow fun _ => 0x200003),
    .answer 0 (commandCompletionEvent (sampleController.cr.slotAddr 2) successCode 3),
    .processEvent (portsShow fun _ => 0x200003),
    .answer 0 (commandCompletionEvent (sampleController.cr.slotAddr 3) successCode 3)]

/-- Two ports, whose slots are returned in another order than their numbers: both devices are
addressed, and their port numbers differ. -/
theorem enumeration_two_ports : ∃ s, ReflTransGen (Step Successful AnyEvent)
    (start sampleController) s ∧ s.returned = [(1, 5), (2, 3)] ∧ ∃ dev dev',
      s.ctl.devmgr.devices 5 = some dev ∧ s.ctl.devmgr.devices 3 = some dev' ∧
        dev.slotContext.rootHubPortNum ≠ dev'.slotContext.rootHubPortNum := by
  have hreturns : returns (perform Successful AnyEvent (start sampleController) addressTwoPorts)
      (fun s => s.returned == [(1, 5), (2, 3)] && (s.ctl.devmgr.devices 5).isSome &&
        (s.ctl.devmgr.devices 3).isSome && s.unanswered.isEmpty &&
        s.ctl.commands.any (fun cmd => cmd.trb.trbType == addressDeviceCommandType &&
          commandSlotId cmd.trb == 5) &&
        s.ctl.commands.any (fun cmd => cmd.trb.trbType == addressDeviceCommandType &&
          commandSlotId cmd.trb == 3)) = true := by decide +kernel
  obtain ⟨s, hperform, htest⟩ := exists_of_returns hreturns
  simp only [Bool.and_eq_true, beq_iff_eq, Option.isSome_iff_exists, List.isEmpty_iff,
    List.any_eq_true] at htest
  obtain ⟨⟨⟨⟨⟨hreturned, dev, hdev⟩, dev', hdev'⟩, hempty⟩, hfive⟩, hthree⟩ := htest
  obtain ⟨writes, hinit⟩ := sampleController_initialized
  have hrun := perform_run hperform
  obtain ⟨-, -, -, hdistinct, -, -⟩ := enumeration hinit hrun
  have haddressed : ∀ (slot : BitVec 8) {dev}, s.ctl.devmgr.devices slot.toNat = some dev →
      (∃ cmd ∈ s.ctl.commands, cmd.trb.trbType = addressDeviceCommandType ∧
        commandSlotId cmd.trb = slot) → s.Addressed slot.toNat dev := by
    rintro slot dev hdev ⟨cmd, hcmd, htype, rfl⟩
    refine ⟨hdev, cmd, hcmd, htype, rfl, ?_⟩
    rw [hempty]
    exact List.not_mem_nil
  refine ⟨s, hrun, hreturned, dev, dev', hdev, hdev', fun hroot => ?_⟩
  have hsame := hdistinct _ _ dev dev' (haddressed 5 hdev hfive)
    (haddressed 3 hdev' hthree) hroot
  exact absurd hsame (by decide)

end CommandSystem

end Mikanos.Xhci
