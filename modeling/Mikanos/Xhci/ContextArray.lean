import Mikanos.Xhci.ControllerRuns
import Mikanos.Xhci.Initialize

/-!
# The device context base address array

The array the controller finds through DCBAAP is filled in by two parts of the
driver: `Initialize` puts the scratchpad buffer array into entry 0, and
`LoadDCBAA` the context of a device into the entry of its slot.

`WellKept` is the invariant of the array: entry 0 is as `Initialize` left it, and
every other entry of a slot is null or points to the context of the device in
that slot.  It holds as long as no Enable Slot completion that is acted upon
carries slot id 0 (`context_array_integrity`).  Neither `AllocDevice` nor
`LoadDCBAA` refuses that slot, which is what a failed Enable Slot command
reports: then the driver makes a device for slot 0 and its context takes the
place of the scratchpad buffer array (`slot_zero_overwrites`).
-/

namespace Mikanos.Xhci

open Relation Mikanos.Usb

namespace Controller

/-- The event is the completion of an Enable Slot command for the port being
addressed, and it carries slot id 0. -/
def EnablesSlotZero (env : Surroundings) (c : Controller) (trb : Trb) : Prop :=
  trb.trbType = commandCompletionEventType ∧
    (trbAt env c trb.pointer60).trbType = enableSlotCommandType ∧
    c.portConfigPhase c.addressingPort = .kEnablingSlot ∧ eventSlotId trb = 0

/-- No Enable Slot completion that is acted upon carries slot id 0. -/
def NoSlotZero (env : Surroundings) (c : Controller) (trb : Trb) : Prop :=
  ¬ EnablesSlotZero env c trb

instance (env : Surroundings) (c : Controller) (trb : Trb) : Decidable (NoSlotZero env c trb) :=
  inferInstanceAs (Decidable (¬ (_ ∧ _ ∧ _ ∧ _)))

/-- The entry of slot `i` is null or leads to the device in that slot. -/
def EntryOk (d : DeviceManager) (i : Nat) : Prop :=
  d.deviceContextPointers i = nullptr ∨
    ∃ dev, d.devices i = some dev ∧ d.deviceContextPointers i = dev.ctxAddr

/-- The invariant of the array; `entry` is what `Initialize` left in entry 0. -/
structure WellKept (entry : Addr) (d : DeviceManager) : Prop where
  maxSlots : d.maxSlots = kDeviceSize
  zero : d.deviceContextPointers 0 = entry
  entries : ∀ i, i ≠ 0 → EntryOk d i
  slots : ∀ i dev, d.devices i = some dev → dev.slotId.toNat = i

/-- The array after `Initialize`. -/
theorem Started.wellKept {c₀ c : Controller} (h : Started c₀ c) :
    WellKept (c.devmgr.deviceContextPointers 0) c.devmgr where
  maxSlots := h.maxSlots
  zero := rfl
  entries := fun i hi => Or.inl (h.contextPointers i hi)
  slots := fun i dev hdev => by
    rw [h.devices i] at hdev
    cases hdev

section Preservation

variable {entry : Addr} {d : DeviceManager} {slotId : BitVec 8} {dev dev' : Device}

/-- A device changes in place: as it is the same object in the same slot, the array of contexts
need not change with it. -/
theorem WellKept.setDevice (h : WellKept entry d) (hdev : d.findBySlot slotId = some dev)
    (hsame : Device.SameObject dev dev') : WellKept entry (d.setDevice slotId dev') := by
  obtain ⟨-, hdev⟩ := DeviceManager.findBySlot_eq_some hdev
  constructor
  case maxSlots => exact h.maxSlots
  case zero => exact h.zero
  case entries =>
    intro i hi
    rcases h.entries i hi with hnull | ⟨dev₁, hdev₁, hentry⟩
    · exact Or.inl hnull
    · refine Or.inr ?_
      by_cases hslot : i = slotId.toNat
      · subst hslot
        rw [hdev] at hdev₁
        cases hdev₁
        refine ⟨dev', DeviceManager.devices_setDevice_self _ _ _, hentry.trans ?_⟩
        rw [Device.ctxAddr, Device.ctxAddr, hsame.self]
      · exact ⟨dev₁, (Function.update_of_ne hslot _ _).trans hdev₁, hentry⟩
  case slots =>
    intro i dev₁ hdev₁
    by_cases hslot : i = slotId.toNat
    · subst hslot
      rw [DeviceManager.devices_setDevice_self] at hdev₁
      cases hdev₁
      rw [hsame.slotId]
      exact h.slots _ _ hdev
    · exact h.slots i dev₁ ((Function.update_of_ne hslot _ _).symm.trans hdev₁)

/-- A device is loaded into the entry of its slot, which is not slot 0, so the entry with the
scratchpad array stays as it is. -/
theorem WellKept.loadDevice (h : WellKept entry d) (hzero : slotId ≠ 0)
    (hdev : d.devices slotId.toNat = some dev ∨
      d.devices slotId.toNat = none ∧ ∃ self, dev = Device.new self slotId)
    (hsame : Device.SameObject dev dev') : WellKept entry (d.loadDevice slotId dev') := by
  have hnat : slotId.toNat ≠ 0 := fun h0 => hzero (BitVec.eq_of_toNat_eq h0)
  constructor
  case maxSlots => exact h.maxSlots
  case zero => exact (Function.update_of_ne (Ne.symm hnat) _ _).trans h.zero
  case entries =>
    intro i hi
    by_cases hslot : i = slotId.toNat
    · subst hslot
      exact Or.inr ⟨dev', DeviceManager.devices_setDevice_self _ _ _,
        Function.update_self _ _ _⟩
    · have hpointer : (d.loadDevice slotId dev').deviceContextPointers i =
          d.deviceContextPointers i := Function.update_of_ne hslot _ _
      rcases h.entries i hi with hnull | ⟨dev₁, hdev₁, hentry⟩
      · exact Or.inl (hpointer.trans hnull)
      · exact Or.inr ⟨dev₁, (Function.update_of_ne hslot _ _).trans hdev₁,
          hpointer.trans hentry⟩
  case slots =>
    intro i dev₁ hdev₁
    by_cases hslot : i = slotId.toNat
    · subst hslot
      have hself : (d.loadDevice slotId dev').devices slotId.toNat = some dev' :=
        DeviceManager.devices_setDevice_self _ _ _
      rw [hself] at hdev₁
      cases hdev₁
      rw [hsame.slotId]
      rcases hdev with hdev | ⟨-, self, rfl⟩
      · exact h.slots _ _ hdev
      · rfl
    · exact h.slots i dev₁ ((Function.update_of_ne hslot _ _).symm.trans hdev₁)

/-- The controller writes device contexts, not their addresses in the array, so the array stays
as well kept as before. -/
theorem WellKept.writeContexts (h : WellKept entry d) (contexts : Nat → SlotContext) :
    WellKept entry (writeContexts d contexts) := by
  constructor
  case maxSlots => exact h.maxSlots
  case zero => exact h.zero
  case entries =>
    intro i hi
    rcases h.entries i hi with hnull | ⟨dev₁, hdev₁, hentry⟩
    · exact Or.inl hnull
    · refine Or.inr ⟨{ dev₁ with slotContext := contexts i }, ?_, hentry⟩
      simp [Controller.writeContexts, hdev₁]
  case slots =>
    intro i dev₁ hdev₁
    obtain ⟨dev₂, hdev₂, rfl⟩ := Option.map_eq_some_iff.mp hdev₁
    exact h.slots i dev₂ hdev₂

/-- **Every handler keeps the array**, if the event does not enable slot 0: the one entry that
is written is that of a slot with a new device. -/
theorem WellKept.outcome {env : Surroundings} {trb : Trb} {c c' : Controller}
    (h : WellKept entry c.devmgr) (hallowed : NoSlotZero env c trb)
    (houtcome : EventOutcome env trb c c') : WellKept entry c'.devmgr := by
  cases houtcome with
  | refused => exact h
  | wait => exact h
  | reset => exact h
  | enable => exact h
  | noSlot => exact h
  | address htype hissuer hphase hslot hdev hsame hport hpush =>
      have hzero : eventSlotId trb ≠ 0 := fun h0 => hallowed ⟨htype, hissuer, hphase, h0⟩
      exact h.loadDevice hzero hdev hsame
  | addressed _ _ hdev _ _ hnext hkeeps =>
      rcases hnext with rfl | ⟨port, -, rfl⟩
      · exact h.setDevice hdev hkeeps.sameObject
      · exact h.setDevice hdev hkeeps.sameObject
  | transfer _ hdev hsame _ => exact h.setDevice hdev hsame
  | configure _ hdev _ hsame _ _ => exact h.setDevice hdev hsame
  | configured _ _ hdev _ hkeeps => exact h.setDevice hdev hkeeps.sameObject

/-- **Step lemma.** A step of the driver or of the controller keeps the array, as long as no
event enables slot 0. -/
theorem WellKept.step {c c' : Controller} (h : WellKept entry c.devmgr)
    (hstep : Step NoSlotZero c c') : WellKept entry c'.devmgr := by
  cases hstep with
  | configurePort _ _ hcall =>
      rcases configurePort_cases hcall with rfl | ⟨-, -, rfl⟩ | ⟨-, -, rfl⟩
      · exact h
      · exact h
      · exact h
  | processEvent hallowed hcall =>
      rcases processEvent_cases hcall with ⟨-, -, rfl⟩ | ⟨trb, c₁, hhas, hfront, hevent, rfl⟩
      · exact h
      · have houtcome := onEvent_outcome hevent
        have hkept := h.outcome (hallowed trb hhas hfront) houtcome
        exact hkept
  | hardware => exact h.writeContexts _

/-- **Run lemma.** -/
theorem WellKept.run {c c' : Controller} (h : WellKept entry c.devmgr)
    (hrun : ReflTransGen (Step NoSlotZero) c c') : WellKept entry c'.devmgr := by
  induction hrun with
  | refl => exact h
  | tail _ hstep ih => exact ih.step hstep

end Preservation

/-- Entry 0 is as it was in `c₁`, and the entry of every slot from 1 to 8 is null
or the address of the context of the device in that slot, whose slot id it is. -/
def ArrayIntact (c₁ c : Controller) : Prop :=
  c.devmgr.deviceContextPointers 0 = c₁.devmgr.deviceContextPointers 0 ∧
    ∀ s, 1 ≤ s → s ≤ 8 → c.devmgr.deviceContextPointers s = nullptr ∨
      ∃ dev, c.devmgr.devices s = some dev ∧
        c.devmgr.deviceContextPointers s = dev.ctxAddr ∧ dev.slotId.toNat = s

/-- **The device context base address array is kept.**  After a successful
`Initialize`, which leaves the scratchpad buffer array or null in entry 0, the
array is intact in every run in which no Enable Slot completion that is acted
upon carries slot id 0. -/
theorem context_array_integrity {hw : PowerOn} {maxPorts : BitVec 8} {pool : Pool}
    {c₁ c : Controller} {writes : List RegisterWrite}
    (hinit : initializeController hw (Controller.new maxPorts pool) = .ok (.kSuccess, c₁, writes))
    (hrun : ReflTransGen (Step NoSlotZero) c₁ c) :
    ArrayIntact c₁ c ∧
      c₁.devmgr.deviceContextPointers 0 = (c₁.scratchpad.map Prod.fst).getD nullptr := by
  have hstarted := initializeController_started rfl hinit
  have hkept := hstarted.wellKept.run hrun
  refine ⟨⟨hkept.zero, fun s hpos _ => ?_⟩, hstarted.scratchpadPointer⟩
  rcases hkept.entries s (by omega) with hnull | ⟨dev, hdev, hentry⟩
  · exact Or.inl hnull
  · exact Or.inr ⟨dev, hdev, hentry, hkept.slots s dev hdev⟩

/-- The controller asks for one scratchpad buffer. -/
def scratchpadPowerOn : PowerOn := { samplePowerOn with hcsparams2 := 0x08000000 }

/-- The first port is taken as far as the completion of its Enable Slot command,
which carries `slotId`. -/
def enableFirstPort (command : Addr) (completionCode slotId : BitVec 8) : List Action :=
  [.configurePort (portsShow fun _ => 1) 1,
    .event (portsShow fun _ => 0x200003) (portStatusChangeEvent 1),
    .event (portsShow fun _ => 0x200003) (commandCompletionEvent command completionCode slotId)]

/-- The entries of slots 0 and 1 after the first port's Enable Slot completion. -/
def entriesAfter (Allowed : Surroundings → Controller → Trb → Prop)
    [∀ env c trb, Decidable (Allowed env c trb)] (completionCode slotId : BitVec 8)
    (c : Controller) : Addr × Addr :=
  let pointers := (performed Allowed c (enableFirstPort (c.cr.slotAddr 0) completionCode
    slotId)).devmgr.deviceContextPointers
  (pointers 0, pointers 1)

/-- Slot 1 is enabled for the first port and its context loaded: the entry of slot 1 is set and
the array is intact. -/
theorem context_array_integrity_first_slot : ∃ c₁ c writes,
    initializeController scratchpadPowerOn sampleNew = .ok (.kSuccess, c₁, writes) ∧
      ReflTransGen (Step NoSlotZero) c₁ c ∧ ArrayIntact c₁ c ∧
      c.devmgr.deviceContextPointers 1 ≠ nullptr := by
  have hreturns : returns (initializeController scratchpadPowerOn sampleNew) (fun result =>
      result.1 == .kSuccess && (entriesAfter NoSlotZero 1 1 result.2.1).2 != nullptr) = true := by
    decide +kernel
  obtain ⟨⟨err, c₁, writes⟩, hinit, htest⟩ := exists_of_returns hreturns
  simp only [Bool.and_eq_true, beq_iff_eq, bne_iff_ne] at htest
  obtain ⟨rfl, hentry⟩ := htest
  have hrun := performed_run NoSlotZero c₁ (enableFirstPort (c₁.cr.slotAddr 0) 1 1)
  exact ⟨c₁, _, writes, hinit, hrun, (context_array_integrity hinit hrun).1, hentry⟩

/-- A device that is loaded takes the entry of its slot. -/
theorem loadDevice_entry (d : DeviceManager) (slotId : BitVec 8) (dev : Device) :
    (d.loadDevice slotId dev).devices slotId.toNat = some dev ∧
      (d.loadDevice slotId dev).deviceContextPointers slotId.toNat = dev.ctxAddr :=
  ⟨DeviceManager.devices_setDevice_self d slotId dev, Function.update_self _ _ _⟩

/-- **Slot 0 takes entry 0**: an Enable Slot completion for slot 0 that is acted
upon puts a device context there. -/
theorem slot_zero_overwrites {env : Surroundings} {trb : Trb} {c c' : Controller} {err : Error}
    (hzero : EnablesSlotZero env c trb) (hcall : onEvent env trb c = .ok (err, c')) :
    ∃ dev, c'.devmgr.devices 0 = some dev ∧ c'.devmgr.deviceContextPointers 0 = dev.ctxAddr := by
  obtain ⟨htype, hissuer, hphase, hslot⟩ := hzero
  have hhandler : onEvent env trb c = addressDevice env c c.addressingPort (eventSlotId trb) := by
    unfold onEvent EventRing.dispatch
    rw [htype, if_neg (by decide), if_neg (by decide), if_pos rfl]
    unfold onCommandCompletionEvent onEnableSlotCompleted
    dsimp only
    rw [hissuer, if_pos rfl, if_neg (not_not.mpr hphase)]
  have hnat : (eventSlotId trb).toNat = 0 := by simp [hslot]
  rw [hhandler] at hcall
  rcases addressDevice_cases hcall with ⟨hlt, -, -⟩ |
    ⟨-, -, dev₀, dev, pool, position, cr, -, -, -, -, rfl⟩
  · omega
  · obtain ⟨hdevice, hentry⟩ := loadDevice_entry c.devmgr (eventSlotId trb) dev
    rw [hnat] at hdevice hentry
    exact ⟨dev, hdevice, hentry⟩

/-- **A failed Enable Slot command** of the first port carries slot id 0, and the
scratchpad buffer array is lost. -/
theorem scratchpad_array_lost : ∃ c₁ c writes,
    initializeController scratchpadPowerOn sampleNew = .ok (.kSuccess, c₁, writes) ∧
      ReflTransGen (Step fun _ _ _ => True) c₁ c ∧ ¬ ArrayIntact c₁ c := by
  have hreturns : returns (initializeController scratchpadPowerOn sampleNew) (fun result =>
      result.1 == .kSuccess && (entriesAfter (fun _ _ _ => True) 9 0 result.2.1).1 !=
        result.2.1.devmgr.deviceContextPointers 0) = true := by
    decide +kernel
  obtain ⟨⟨err, c₁, writes⟩, hinit, htest⟩ := exists_of_returns hreturns
  simp only [Bool.and_eq_true, beq_iff_eq, bne_iff_ne] at htest
  obtain ⟨rfl, hentry⟩ := htest
  exact ⟨c₁, _, writes, hinit, performed_run _ c₁ (enableFirstPort (c₁.cr.slotAddr 0) 9 0),
    fun hintact => hentry hintact.1⟩

end Controller

end Mikanos.Xhci
