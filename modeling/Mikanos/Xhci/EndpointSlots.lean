import Mikanos.Xhci.EndpointTable

/-!
# Endpoint slots

Subscript 0 of `transfer_rings_` and `ep_contexts` belongs to the default control
pipe.  An endpoint number comes from a descriptor, and nothing rules out 0: the
endpoint then has the Device Context Index 1 or 0 and takes the place of the control
pipe, or of nothing at all.  A class driver without an interrupt-IN endpoint uses
the index 0, too.

`KeepsToItsSlots` says of a configuration descriptor that it has neither.  In a run
with such descriptors every endpoint stays in its own slot.
-/

namespace Mikanos.Xhci.Device

open Relation Mikanos.Usb

/-- A Device Context Index of an endpoint of the device itself. -/
def IsOwnDci (dci : Int) : Prop := 2 ≤ dci ∧ dci ≤ 31

/-- No endpoint that is taken over has the number 0, and if there is one at all,
then there is one for interrupt-IN transfers. -/
def KeepsToItsSlots (b : List (BitVec 8)) (len : Nat) : Prop :=
  ∀ k j, Walked b len k j →
    (∀ conf ∈ endpointConfigs b k j, conf.epId.number ≠ 0) ∧
    (endpointConfigs b k j = [] ∨ ∃ conf ∈ endpointConfigs b k j, IsInterruptIn conf)

/-- Completions are passed to the class driver at `p`. -/
def Serves (dev : Device) (p : Addr) : Prop :=
  p ≠ nullptr ∧
    ((∃ i, dev.classDrivers i = p) ∨ ∃ setupData, dev.eventWaiters.get setupData = some p)

/-- The index of an endpoint whose number is not 0. -/
theorem isOwnDci_address {b : List (BitVec 8)} {k j : Nat} {conf : EndpointConfig}
    (hmem : conf ∈ endpointConfigs b k j) (hnumber : conf.epId.number ≠ 0) :
    IsOwnDci conf.epId.address := by
  obtain ⟨d, -, rfl⟩ := List.mem_map.mp hmem
  obtain ⟨hnonneg, hlt⟩ := epConfig_number d
  unfold EndpointID.number at hnumber hnonneg hlt
  unfold IsOwnDci EndpointID.address
  omega

/-- Who is served is a class driver. -/
theorem WaitersServed.classDrivers {dev : Device} (h : WaitersServed dev) {p : Addr}
    (hserves : Serves dev p) : ∃ i, dev.classDrivers i = p := by
  obtain ⟨hne, hclass | ⟨setupData, hget⟩⟩ := hserves
  · exact hclass
  · exact h (setupData, p) (ArrayMap.mem_entries_of_get hget) hne

/-! ## The loop of `ConfigureEndpoints` -/

/-- After `n` endpoints: their bits and those that were there before are set, and
nothing else has changed outside the slots of the endpoints. -/
structure Configured (dev dev' : Device) (n : Nat) : Prop where
  epConfigs : dev'.epConfigs = dev.epConfigs
  slotContext : dev'.inputContext.slotContext = dev.inputContext.slotContext
  controlContext : dev'.inputContext.epContexts 0 = dev.inputContext.epContexts 0
  controlRing : dev'.transferRings 0 = dev.transferRings 0
  flags : ∀ t < 32, dev'.inputContext.addContextFlags.getLsbD t = true ↔
    dev.inputContext.addContextFlags.getLsbD t = true ∨
      ∃ i : Fin 16, i.val < n ∧ (dev.epConfigs i).epId.address = t

/-- `EnableEndpoint` sets one bit. -/
theorem getLsbD_enableEndpoint (input : InputContext) (i : Fin 31) {t : Nat} (ht : t < 32) :
    (input.enableEndpoint i).addContextFlags.getLsbD t = true ↔
      input.addContextFlags.getLsbD t = true ∨ i.val + 1 = t := by
  change (input.addContextFlags ||| BitVec.ofNat 32 (1 <<< (i.val + 1))).getLsbD t = true ↔ _
  rw [BitVec.getLsbD_or, BitVec.getLsbD_ofNat, Nat.one_shiftLeft, Nat.testBit_two_pow]
  simp [ht]

/-- A subscript and the index it stands for. -/
theorem dciIndex_eq_ok {dci : Int} {i : Fin 31} (h : dciIndex dci = .ok i) :
    dci = (i.val + 1 : Nat) := by
  unfold dciIndex at h
  split at h
  · cases h
    change dci = (((dci - 1).toNat + 1 : Nat) : Int)
    omega
  · cases h

/-- `AllocTransferRing` stores the ring it returns. -/
theorem allocTransferRing_eq (dev : Device) (i : Fin 31) (n : Nat) (pool : Usb.Pool) :
    ∃ tr pool', dev.allocTransferRing i n pool = (tr, dev.setRing i tr, pool') := by
  unfold allocTransferRing
  generalize placeRing n (pool.allocArray 32 1 64 4096) = placed
  exact ⟨_, _, rfl⟩

/-- One endpoint more: its add flag is set, and as its index is its own, the slot context, the
control endpoint and its ring are untouched. -/
theorem Configured.useEndpointRing {dev dev₁ dev' : Device} {pool pool' : Usb.Pool} {n : Nat}
    {hn : n < 16} {portSpeed : BitVec 4} {i : Fin 31} {tr : Option Ring}
    (h : Configured dev dev₁ n) (hi : dciIndex (dev.epConfigs ⟨n, hn⟩).epId.address = .ok i)
    (hown : IsOwnDci (dev.epConfigs ⟨n, hn⟩).epId.address)
    (huse : useEndpointRing i (dev.epConfigs ⟨n, hn⟩) portSpeed
      (tr, (dev₁.enableInputEndpoint i).setRing i tr, pool) = .ok (dev', pool')) :
    Configured dev dev' (n + 1) := by
  have haddress := dciIndex_eq_ok hi
  have hne : (0 : Fin 31) ≠ i := by
    rintro rfl
    rw [haddress] at hown
    exact absurd hown.1 (by decide)
  unfold Device.useEndpointRing at huse
  split at huse
  · cases huse
  · cases huse
    constructor
    case epConfigs => exact h.epConfigs
    case slotContext => exact h.slotContext
    case controlContext => exact (Function.update_of_ne hne _ _).trans h.controlContext
    case controlRing => exact (Function.update_of_ne hne _ _).trans h.controlRing
    case flags =>
      intro t ht
      refine (getLsbD_enableEndpoint dev₁.inputContext i ht).trans ?_
      rw [h.flags t ht, or_assoc]
      refine or_congr Iff.rfl ⟨?_, ?_⟩
      · rintro (⟨k, hk, hkt⟩ | rfl)
        · exact ⟨k, Nat.lt_succ_of_lt hk, hkt⟩
        · exact ⟨⟨n, hn⟩, Nat.lt_succ_self n, haddress⟩
      · rintro ⟨k, hk, hkt⟩
        rcases Nat.lt_succ_iff_lt_or_eq.mp hk with hlt | heq
        · exact Or.inl ⟨k, hlt, hkt⟩
        · obtain rfl : k = ⟨n, hn⟩ := Fin.ext heq
          right
          rw [haddress] at hkt
          exact Int.ofNat.inj hkt

/-- **The loop** keeps every endpoint in its own slot, by induction on the rounds, if every DCI
is the one of an endpoint with a number. -/
theorem configureEndpointLoop_configured {portSpeed : BitVec 4} {dev : Device} {pool : Usb.Pool}
    (n : Nat) : (∀ i : Fin 16, i.val < n → IsOwnDci (dev.epConfigs i).epId.address) →
    ∀ {dev' : Device} {pool' : Usb.Pool},
      configureEndpointLoop portSpeed dev pool n = .ok (dev', pool') → Configured dev dev' n := by
  induction n with
  | zero =>
      intro _ dev' pool' h
      cases h
      refine ⟨rfl, rfl, rfl, rfl, fun t _ => ⟨Or.inl, ?_⟩⟩
      rintro (hbit | ⟨i, hi, -⟩)
      · exact hbit
      · exact absurd hi (Nat.not_lt_zero _)
  | succ n ih =>
      intro hown dev' pool' h
      obtain ⟨dev₁, pool₁, hn, i, hrest, hi, h⟩ := configureEndpointLoop_succ h
      have hconfigured := ih (fun i hi => hown i (Nat.lt_succ_of_lt hi)) hrest
      rw [hconfigured.epConfigs] at hi h
      obtain ⟨tr, pool₂, halloc⟩ := allocTransferRing_eq (dev₁.enableInputEndpoint i) i 32 pool₁
      rw [halloc] at h
      exact hconfigured.useEndpointRing hi (hown ⟨n, hn⟩ (Nat.lt_succ_self n)) h

/-- **`ConfigureEndpoints`** for a device whose endpoints have indices of their own:
the slot context is that of the device but for `context_entries`, the control pipe
is untouched, and if the command is issued, then it adds the slot context and the
endpoints. -/
theorem configureEndpoints_configured {env : Surroundings} {c c' : Controller} {slotId : BitVec 8}
    {dev : Device} {err : Error}
    (hown : ∀ i : Fin 16, i.val < dev.numEpConfigs → IsOwnDci (dev.epConfigs i).epId.address)
    (h : Controller.configureEndpoints env c slotId dev = .ok (err, c')) :
    ∃ dev', c'.devmgr.devices slotId.toNat = some dev' ∧
      dev'.inputContext.slotContext = dev.slotContext.setBits 0 27 (31 : BitVec 5) ∧
      dev'.inputContext.epContexts 0 = dev.inputContext.epContexts 0 ∧
      dev'.transferRings 0 = dev.transferRings 0 ∧
      (err = .kSuccess → ∀ t < 32, dev'.inputContext.addContextFlags.getLsbD t = true ↔
        t = 0 ∨ ∃ i : Fin 16, i.val < dev.numEpConfigs ∧ (dev.epConfigs i).epId.address = t) := by
  have hflag : ∀ t < 32, dev.prepareEndpoints.inputContext.addContextFlags.getLsbD t = true ↔
      t = 0 := by
    intro t ht
    change ((0 : BitVec 32) ||| 1).getLsbD t = true ↔ _
    change (1#32).getLsbD t = true ↔ _
    rw [BitVec.getLsbD_one]
    simp
  rcases Controller.configureEndpoints_parts h with
    ⟨-, rfl, rfl⟩ | ⟨-, rfl, dev', pool', position, cr, hloop, -, rfl⟩
  · refine ⟨dev.prepareEndpoints, DeviceManager.devices_setDevice_self _ _ _, rfl, rfl, rfl, ?_⟩
    intro herr
    cases herr
  · have hprepared : ∀ i : Fin 16, i.val < dev.prepareEndpoints.numEpConfigs →
        IsOwnDci (dev.prepareEndpoints.epConfigs i).epId.address := hown
    have hconfigured := configureEndpointLoop_configured _ hprepared hloop
    refine ⟨dev', DeviceManager.devices_setDevice_self _ _ _, hconfigured.slotContext,
      hconfigured.controlContext, hconfigured.controlRing, fun _ t ht => ?_⟩
    rw [hconfigured.flags t ht, hflag t ht]
    rfl

/-! ## Every run -/

/-- **Endpoint slots.**  In a run whose configuration descriptors keep to their
slots, and once the device is initialized: the index of each endpoint that
`ConfigureEndpoints` goes through is one of the device's own, so is that of the
interrupt endpoint of each class driver that completions are passed to, and
`ConfigureEndpoints` changes nothing else. -/
theorem endpoint_slots {self : Addr} {slotId : BitVec 8} {dev : Device}
    (hreached : Reached KeepsToItsSlots self slotId dev) (hinit : dev.isInitialized = true) :
    (∀ i : Fin 16, i.val < dev.numEpConfigs → IsOwnDci (dev.epConfigs i).epId.address) ∧
    (∀ p d, Serves dev p → dev.drivers p = some d → IsOwnDci d.epInterruptIn.address) ∧
    ∀ (env : Surroundings) (c c' : Controller) (slot : BitVec 8) (err : Error),
      Controller.configureEndpoints env c slot dev = .ok (err, c') →
      ∃ dev', c'.devmgr.devices slot.toNat = some dev' ∧
        dev'.inputContext.slotContext = dev.slotContext.setBits 0 27 (31 : BitVec 5) ∧
        dev'.inputContext.epContexts 0 = dev.inputContext.epContexts 0 ∧
        dev'.transferRings 0 = dev.transferRings 0 ∧
        (err = .kSuccess → ∀ t < 32, dev'.inputContext.addContextFlags.getLsbD t = true ↔
          t = 0 ∨ ∃ i : Fin 16, i.val < dev.numEpConfigs ∧
            (dev.epConfigs i).epId.address = t) := by
  obtain ⟨hstage, hwaiters⟩ := hreached.stage
  cases hstage with
  | started _ hinit' =>
      rw [hinit] at hinit'
      cases hinit'
  | selected _ hinit' =>
      rw [hinit] at hinit'
      cases hinit'
  | @initialized b len k j p₀ _ _ hkeeps htaken hfed =>
      obtain ⟨hnumbers, hinterrupt⟩ := hkeeps k j htaken.walked
      have hown : ∀ i : Fin 16, i.val < dev.numEpConfigs →
          IsOwnDci (dev.epConfigs i).epId.address := by
        intro i hi
        have hmem := List.mem_of_getElem? (htaken.configs i hi)
        exact isOwnDci_address hmem (hnumbers _ hmem)
      refine ⟨hown, ?_, fun env c c' slot err h => configureEndpoints_configured hown h⟩
      intro p d hserves hd
      obtain ⟨i, hi⟩ := hwaiters.classDrivers hserves
      rw [htaken.classDrivers] at hi
      split at hi
      · rename_i hany
        subst hi
        obtain ⟨conf, hconf, -⟩ := List.any_eq_true.mp hany
        have hexists : ∃ conf ∈ endpointConfigs b k j, IsInterruptIn conf := by
          rcases hinterrupt with hnil | hexists
          · rw [hnil] at hconf
            cases hconf
          · exact hexists
        obtain ⟨conf', hmem', -, hep⟩ := hfed d hd hexists
        rw [hep]
        exact isOwnDci_address hmem' (hnumbers conf' hmem')
      · exact absurd hi.symm hserves.1

/-- The walk over the configuration of the boot mouse. -/
theorem walked_mouse : Walked (mouseConfiguration :: mouseDescriptors).flatten 34 0 2 := by
  have hfirst : FirstInterface (mouseConfiguration :: mouseDescriptors).flatten 34 0 :=
    ⟨fun j hj => absurd hj (Nat.not_lt_zero j), by decide, by decide, by decide⟩
  refine ⟨hfirst, fun t ht => ?_, by decide⟩
  interval_cases t
  · exact ⟨by decide, by decide, by decide, by decide⟩
  · exact ⟨by decide, by decide, by decide, by decide⟩

theorem keepsToItsSlots_mouse :
    KeepsToItsSlots (mouseConfiguration :: mouseDescriptors).flatten 34 := by
  intro k j hwalked
  obtain ⟨rfl, rfl⟩ := walked_mouse.unique hwalked
  exact ⟨by decide, Or.inr ⟨_, List.mem_cons_self, by decide⟩⟩

/-- The boot mouse keeps to its slots: its configuration records one endpoint, number 1 IN, with
the index 3. -/
theorem endpoint_slots_mouse : ∃ dev : Device, dev.numEpConfigs = 1 ∧
    IsOwnDci (dev.epConfigs 0).epId.address := by
  have hrun : returns (addressed.bind fun dev => dev.answers
      [(getDescriptorData kDeviceDescriptor, List.replicate 18 1),
        (getDescriptorData kConfigurationDescriptor,
          (mouseConfiguration :: mouseDescriptors).flatten),
        (setConfigurationData 1, [])])
      (fun dev => dev.numEpConfigs == 1 && dev.isInitialized) = true := by decide +kernel
  obtain ⟨dev, hdev, htest⟩ := exists_of_returns hrun
  obtain ⟨dev₀, haddressed, hanswers⟩ := bind_eq_ok.mp hdev
  obtain ⟨hone, hinit⟩ := Bool.and_eq_true_iff.mp htest
  have hreached := answers_reached (addressed_reached KeepsToItsSlots haddressed) (by
    simp only [List.mem_cons, List.not_mem_nil, or_false, forall_eq_or_imp, forall_eq]
    exact ⟨fun h => absurd h (by decide), fun _ => keepsToItsSlots_mouse,
      fun h => absurd h (by decide)⟩)
    hanswers
  have hnum : dev.numEpConfigs = 1 := by simpa using hone
  exact ⟨dev, hnum, (endpoint_slots hreached hinit).1 0 (by rw [hnum]; decide)⟩

/-- A configuration whose interface has one interrupt-IN endpoint, of number 0. -/
def endpointZero : List (BitVec 8) :=
  mouseConfiguration ++ [9, 4, 0, 0, 1, 3, 1, 2, 0, 7, 5, 0x80, 3, 8, 0, 10]

/-- **Endpoint number 0**: `ConfigureEndpoints` is reached with an endpoint whose
index is that of the default control pipe. -/
theorem endpoint_zero : ∃ dev, Reached (fun _ _ => True) 0x200040 1 dev ∧
    dev.isInitialized = true ∧ dev.numEpConfigs = 1 ∧
    ¬ IsOwnDci (dev.epConfigs 0).epId.address := by
  have hrun : returns (addressed.bind fun dev => dev.answers
      [(getDescriptorData kDeviceDescriptor, List.replicate 18 1),
        (getDescriptorData kConfigurationDescriptor, endpointZero),
        (setConfigurationData 1, [])])
      (fun dev => dev.isInitialized && (dev.numEpConfigs == 1) &&
        ((dev.epConfigs 0).epId.address == 1)) = true := by decide +kernel
  obtain ⟨dev, hdev, htest⟩ := exists_of_returns hrun
  obtain ⟨dev₀, haddressed, hanswers⟩ := bind_eq_ok.mp hdev
  simp only [Bool.and_eq_true, beq_iff_eq] at htest
  obtain ⟨⟨hinit, hone⟩, haddress⟩ := htest
  refine ⟨dev, ?_, hinit, hone, ?_⟩
  · exact answers_reached (addressed_reached _ haddressed) (fun _ _ _ => trivial) hanswers
  · rw [haddress]
    exact fun hown => absurd hown.1 (by decide)

end Mikanos.Xhci.Device
