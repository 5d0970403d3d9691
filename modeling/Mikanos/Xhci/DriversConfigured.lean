import Mikanos.Xhci.ClassDriverCalls
import Mikanos.Xhci.EndpointSlots
import Mikanos.Xhci.SwallowedErrors

/-!
# Configuring the class drivers

`InitializePhase2` enters one class driver at the number of each endpoint of its interface.
`SetUp` is the way from there to `OnEndpointsConfigured`, which then calls this driver once for
each endpoint number.  So the driver is configured once if and only if all endpoints have the
same number (`configuresOnce_iff`): a keyboard with an interrupt-OUT endpoint of its own is
configured twice.
-/

namespace Mikanos.Xhci

open Mikanos.Usb

namespace Device

/-! ## From the configuration descriptor to the call -/

/-- No class driver, and no request under way. -/
structure Unconfigured (dev : Device) : Prop where
  idle : RequestSystem.Idle dev
  isInitialized : dev.isInitialized = false
  classDrivers : ∀ k, dev.classDrivers k = nullptr
  waiters : dev.eventWaiters.entries = []

/-- How `dev` comes to the call of `OnEndpointsConfigured`: `InitializePhase2` reads the
configuration descriptor sent to `dev₀`, a Transfer Event completes the initialization, and
`ConfigureEndpoints` allocates the rings of the endpoints.  Its command lets the controller
write the slot context. -/
inductive SetUp (dev₀ : Device) : Device → Prop
  | intro {m m' : Dma} {obs obs' : DefaultObservers} {pool pool₁ pool₂ pool₃ pool₄ pool₅ : Usb.Pool}
      {buf : Addr} {len : Int} {trb : Trb} {err err' : Error} {dev₁ dev₂ dev₃ : Device}
      {portSpeed : BitVec 4} {slotContext : SlotContext}
      (hlen : len ≤ (m.bytes buf).length)
      (hphase2 : initializePhase2 m obs dev₀ pool buf len = .ok (err, dev₁, pool₁))
      (hevent : onTransferEventReceived m' obs' dev₁ pool₂ trb = .ok (err', dev₂, pool₃))
      (hinit : dev₂.isInitialized = true)
      (hrings : configureEndpointLoop portSpeed dev₂.prepareEndpoints pool₄ dev₂.numEpConfigs =
        .ok (dev₃, pool₅)) : SetUp dev₀ { dev₃ with slotContext := slotContext }

/-- Only a control completion initializes a device, and it does so in the handler for one that
is not yet initialized. -/
theorem onTransferEventReceived_initializes {m : Dma} {obs : DefaultObservers}
    {dev dev' : Device} {pool pool' : Usb.Pool} {trb : Trb} {err : Error}
    (hbefore : dev.isInitialized = false) (hafter : dev'.isInitialized = true)
    (h : onTransferEventReceived m obs dev pool trb = .ok (err, dev', pool')) :
    ∃ setupData buf len dev₁,
      decodeTransferEvent m dev trb = (.control setupData buf len, dev₁) ∧
      continueInitialize m obs dev₁ pool setupData buf len = .ok (err, dev', pool') := by
  have hkept := (decodeTransferEvent_waiters m dev trb).2.trans hbefore
  unfold onTransferEventReceived at h
  dsimp only at h
  generalize decodeTransferEvent m dev trb = decoded at h hkept
  obtain ⟨completion, dev₁⟩ := decoded
  dsimp only at h hkept
  cases completion with
  | failed err =>
      cases h
      rw [hkept] at hafter
      cases hafter
  | interrupt epId buf len =>
      obtain ⟨⟨err₁, dev₂⟩, hinterrupt, h⟩ := bind_eq_ok.mp h
      cases h
      rw [(onInterruptCompleted_keepsEndpoints hinterrupt).isInitialized, hkept] at hafter
      cases hafter
  | control setupData buf len =>
      refine ⟨setupData, buf, len, dev₁, rfl, ?_⟩
      change onControlCompleted m obs dev₁ pool setupData buf len = _ at h
      have hcases := onControlCompleted_cases h
      cases hcases with
      | driver hinit =>
          rw [hkept] at hinit
          cases hinit
      | noWaiter hinit =>
          rw [hkept] at hinit
          cases hinit
      | initializing _ hcall => exact hcall

/-- A completion that initializes the device in phase 3 does this by `InitializePhase3`, so what
is shown for that function holds after it. -/
theorem continueInitialize_phase3 {m : Dma} {obs : DefaultObservers} {dev dev' : Device}
    {pool pool' : Usb.Pool} {setupData : SetupData} {buf : Addr} {len : Int} {err : Error}
    (hphase : dev.initializePhase = 3) (hbefore : dev.isInitialized = false)
    (hafter : dev'.isInitialized = true)
    (h : continueInitialize m obs dev pool setupData buf len = .ok (err, dev', pool')) :
    ∃ drivers, dev.setEndpoints dev.numEpConfigs = .ok { dev with drivers := drivers } ∧
      dev' = { dev with drivers := drivers, initializePhase := 4, isInitialized := true } := by
  cases continueInitialize_cases h with
  | phase1 hother => omega
  | phase2 hother => omega
  | phase3 _ _ hcall => exact initializePhase3_fields hcall
  | refused =>
      rw [hbefore] at hafter
      cases hafter

/-- SET_CONFIGURATION is a request without a class driver: it is under way afterwards, and no
waiter has been added for it. -/
theorem setConfiguration_underWay {dev dev' : Device} {value : BitVec 8} {err : Error}
    (hidle : RequestSystem.Idle dev)
    (h : dev.setConfiguration kDefaultControlPipeID value = .ok (err, dev')) :
    (∃ o, UnderWay dev' o) ∧ dev'.eventWaiters = dev.eventWaiters := by
  have hcall : dev.control false (setConfigurationData value) nullptr 0 nullptr =
      .ok (err, dev') := by
    rw [control, if_neg (by decide)]
    exact h
  obtain ⟨ioc, first, hunder⟩ := underWay_of_control hidle (le_refl 0) (by decide) hcall
  unfold setConfiguration controlOut at h
  have hwaiters := (controlTransfer_waiters h).1
  rw [addWaiter_nullptr] at hwaiters
  exact ⟨⟨_, hunder⟩, hwaiters⟩

/-- The class drivers of endpoints taken over: the one at `p`, at the number of each endpoint. -/
theorem TakenOver.classDriver {dev : Device} {b : List (BitVec 8)} {len k j : Nat} {p : Addr}
    (h : TakenOver dev b len k j p) {n : Fin 16} (hne : dev.classDrivers n ≠ nullptr) :
    dev.classDrivers n = p := by
  have hn := h.classDrivers n
  split at hn
  · exact hn
  · exact absurd hn hne

/-- The class driver serves exactly the numbers of the endpoints that were taken over, so its
entries can be read off the table. -/
theorem TakenOver.classDriver_iff {dev : Device} {b : List (BitVec 8)} {len k j : Nat} {p : Addr}
    (h : TakenOver dev b len k j p) (hp : p ≠ nullptr) (n : Fin 16) :
    dev.classDrivers n = p ↔
      ∃ i : Fin 16, i.val < dev.numEpConfigs ∧ (dev.epConfigs i).epId.number = n.val := by
  have hfits : (endpointConfigs b k j).length ≤ 16 := by
    rw [endpointConfigs, List.length_map]
    exact (length_endpointsSeen_le h.walked.takes).1
  rw [h.classDrivers n]
  constructor
  · intro heq
    split at heq
    · rename_i hany
      obtain ⟨conf, hmem, hnumber⟩ := List.any_eq_true.mp hany
      obtain ⟨i, hi⟩ := List.mem_iff_getElem?.mp hmem
      have hlt := (List.getElem?_eq_some_iff.mp hi).1
      have hconf := h.configs ⟨i, by omega⟩ (by rw [h.num]; exact hlt)
      refine ⟨⟨i, by omega⟩, by rw [h.num]; exact hlt, ?_⟩
      rw [← Option.some.inj (hi.symm.trans hconf)]
      simpa using hnumber
    · exact absurd heq.symm hp
  · rintro ⟨i, hi, hnumber⟩
    have hmem := List.mem_of_getElem? (h.configs i hi)
    rw [if_pos (List.any_eq_true.mpr ⟨_, hmem, by simpa using hnumber⟩)]

/-- The device has selected the configuration it was sent, and waits for the completion. -/
structure Selected (dev : Device) (b : List (BitVec 8)) (len k j : Nat) (p : Addr) : Prop where
  taken : TakenOver dev b len k j p
  nonnull : p ≠ nullptr
  present : ∃ d, dev.drivers p = some d
  served : EndpointsServed dev
  isInitialized : dev.isInitialized = false
  initializePhase : dev.initializePhase = 3
  waiters : dev.eventWaiters.entries = []
  underWay : ∃ o, UnderWay dev o

/-- **After `InitializePhase2`** nothing has changed, or an interface is selected, its endpoints
are taken over and SET_CONFIGURATION is under way. -/
theorem Unconfigured.initializePhase2 {m : Dma} {obs : DefaultObservers} {dev dev' : Device}
    {pool pool' : Usb.Pool} {buf : Addr} {len : Int} {err : Error} (h : Unconfigured dev)
    (hlen : len ≤ (m.bytes buf).length)
    (hcall : dev.initializePhase2 m obs pool buf len = .ok (err, dev', pool')) :
    dev' = dev ∨ ∃ k j p, Selected dev' (m.bytes buf) len.toNat k j p := by
  rcases initializePhase2_cases hlen hcall with rfl | ⟨k, j, p, d, value, hp, -, hwalked, hset⟩
  · exact Or.inl rfl
  · have htaken := takenOver_configured p d hwalked h.classDrivers
    have hserved : EndpointsServed (configured dev p d (endpointConfigs (m.bytes buf) k j)) :=
      configured_served d hp hwalked
    have hidle : RequestSystem.Idle (configured dev p d (endpointConfigs (m.bytes buf) k j)) :=
      idle_of_eq h.idle rfl rfl
    have hkeeps := setConfiguration_keepsEndpoints hset
    obtain ⟨hunder, hwaiters⟩ := setConfiguration_underWay hidle hset
    refine Or.inr ⟨k, j, p, ?_⟩
    constructor
    case taken => exact htaken.of_fields hkeeps.numEpConfigs hkeeps.epConfigs hkeeps.classDrivers
    case nonnull => exact hp
    case present =>
      rw [setConfiguration_drivers hset]
      exact ⟨d, Function.update_self _ _ _⟩
    case served =>
      constructor
      · rw [hkeeps.numEpConfigs]
        exact hserved.fits
      · rw [hkeeps.numEpConfigs, hkeeps.epConfigs, hkeeps.classDrivers]
        exact hserved.served
    case isInitialized => exact hkeeps.isInitialized.trans h.isInitialized
    case initializePhase => exact hkeeps.initializePhase
    case waiters =>
      rw [hwaiters]
      exact h.waiters
    case underWay => exact hunder

/-- The class driver of the selected interface learns its endpoints: the loop over the table
ends without a fault and calls it. -/
theorem Selected.setEndpoints {dev : Device} {b : List (BitVec 8)} {len k j : Nat} {p : Addr}
    (h : Selected dev b len k j p) (stages : ArrayMap Addr Addr 16) :
    ∃ drivers, Device.setEndpoints { dev with setupStageMap := stages } dev.numEpConfigs =
        .ok { dev with setupStageMap := stages, drivers := drivers } ∧
      ∃ d, drivers p = some d := by
  have hpresent : DriversPresent { dev with setupStageMap := stages } := by
    intro n hn
    change ∃ d, dev.drivers (dev.classDrivers n) = some d
    rw [h.taken.classDriver hn]
    exact h.present
  obtain ⟨drivers, hset, hkeeps⟩ :=
    setEndpoints_served hpresent dev.numEpConfigs h.served.fits h.served.served
  obtain ⟨d, hd⟩ := h.present
  exact ⟨drivers, hset, hkeeps p d hd⟩

/-- **After the event that completes the initialization** the endpoints are those that were
taken over and the device is idle. -/
theorem Selected.initialized {dev dev' : Device} {b : List (BitVec 8)} {len k j : Nat} {p : Addr}
    (h : Selected dev b len k j p) {m : Dma} {obs : DefaultObservers} {pool pool' : Usb.Pool}
    {trb : Trb} {err : Error}
    (hcall : onTransferEventReceived m obs dev pool trb = .ok (err, dev', pool'))
    (hinit : dev'.isInitialized = true) : TakenOver dev' b len k j p ∧ Ready dev' p := by
  obtain ⟨setupData, buf, len', dev₁, hdecode, hcontinue⟩ :=
    onTransferEventReceived_initializes h.isInitialized hinit hcall
  obtain ⟨o, hunder⟩ := h.underWay
  have hidle := hunder.idle hdecode
  obtain ⟨-, rfl⟩ := decodeTransferEvent_control_cases hdecode
  obtain ⟨drivers, hset, rfl⟩ :=
    continueInitialize_phase3 (by exact h.initializePhase) (by exact h.isInitialized) hinit
      hcontinue
  obtain ⟨drivers', hset', hpresent⟩ := h.setEndpoints (dev.setupStageMap.delete trb.parameter)
  obtain rfl : drivers' = drivers := congrArg Device.drivers (Except.ok.inj (hset'.symm.trans hset))
  refine ⟨h.taken.of_fields rfl rfl rfl, ?_⟩
  constructor
  case idle => exact idle_of_eq hidle rfl rfl
  case isInitialized => rfl
  case waiters => exact h.waiters
  case nonnull => exact h.nonnull
  case present => exact hpresent
  case classDrivers => exact fun n hn => h.taken.classDriver hn

/-- **At the call of `OnEndpointsConfigured`**, if no endpoint has the number 0, the device has
one class driver and everything that the call needs. -/
theorem SetUp.ready {dev₀ dev : Device} (h₀ : Unconfigured dev₀) (h : SetUp dev₀ dev)
    (hnumbers : ∀ i : Fin 16, i.val < dev.numEpConfigs → (dev.epConfigs i).epId.number ≠ 0) :
    ∃ b len k j p, TakenOver dev b len k j p ∧ Ready dev p := by
  cases h with
  | @intro m _ _ _ _ _ _ _ _ _ buf len _ _ _ dev₁ dev₂ dev₃ _ slotContext hlen hphase2 hevent
      hinit hrings =>
      rcases h₀.initializePhase2 hlen hphase2 with rfl | ⟨k, j, p, hselected⟩
      · obtain ⟨setupData, buf, len', dev₁', hdecode, -⟩ :=
          onTransferEventReceived_initializes h₀.isInitialized hinit hevent
        exact absurd hdecode (idle_no_completion h₀.idle)
      · obtain ⟨htaken, hready⟩ := hselected.initialized hevent hinit
        obtain ⟨transferRings, inputContext, hdev₃⟩ := configureEndpointLoop_fields _ hrings
        have hown : ∀ i : Fin 16, i.val < dev₂.numEpConfigs →
            IsOwnDci (dev₂.prepareEndpoints.epConfigs i).epId.address := by
          intro i hi
          rw [hdev₃] at hnumbers
          exact isOwnDci_address (List.mem_of_getElem? (htaken.configs i hi)) (hnumbers i hi)
        have hcontrol := (configureEndpointLoop_configured _ hown hrings).controlRing
        rw [hdev₃] at hcontrol ⊢
        refine ⟨_, _, k, j, p, htaken.of_fields rfl rfl rfl, ?_⟩
        constructor
        case idle => exact idle_of_eq hready.idle hcontrol rfl
        case isInitialized => exact hready.isInitialized
        case waiters => exact hready.waiters
        case nonnull => exact hready.nonnull
        case present => exact hready.present
        case classDrivers => exact hready.classDrivers

/-! ## Configurations that are set up -/

/-- The first requests of a device, those for its descriptors, and their completions leave it
unconfigured and idle. -/
theorem Unconfigured.requested {dev dev₁ dev' : Device} (h : Unconfigured dev) {dirIn : Bool}
    {setupData setupData' : SetupData} {buf buf' : Addr} {len len' : Int} {err : Error} {m : Dma}
    {trb : Trb} (h0 : 0 ≤ len) (hlen : len < 2 ^ 17)
    (hcall : dev.control dirIn setupData buf len nullptr = .ok (err, dev₁))
    (hdecode : decodeTransferEvent m dev₁ trb = (.control setupData' buf' len', dev')) :
    Unconfigured dev' := by
  obtain ⟨ioc, first, hunder⟩ := underWay_of_control h.idle h0 hlen hcall
  rw [control_eq_transfer] at hcall
  have hkeeps := controlTransfer_keepsEndpoints (fun hissuer => absurd rfl hissuer) hcall
  have hwaiters := (controlTransfer_waiters hcall).1
  rw [addWaiter_nullptr] at hwaiters
  have hidle := hunder.idle hdecode
  obtain ⟨-, rfl⟩ := decodeTransferEvent_control_cases hdecode
  constructor
  case idle => exact hidle
  case isInitialized => exact hkeeps.isInitialized.trans h.isInitialized
  case classDrivers =>
    intro k
    change dev₁.classDrivers k = nullptr
    rw [hkeeps.classDrivers]
    exact h.classDrivers k
  case waiters =>
    change dev₁.eventWaiters.entries = []
    rw [hwaiters]
    exact h.waiters

/-- GET_DESCRIPTOR is a request without a class driver. -/
theorem getDescriptor_eq (dev : Device) (descType descIndex : BitVec 8) (buf : Addr) (len : Int) :
    ∃ setupData, dev.getDescriptor kDefaultControlPipeID descType descIndex buf len =
      dev.control true setupData buf len nullptr := by
  simp only [control, if_true, getDescriptor]
  exact ⟨_, rfl⟩

/-- So `InitializePhase2` finds the device unconfigured: `StartInitialize` and `InitializePhase1`
have asked for one descriptor each. -/
theorem Unconfigured.started {dev dev₁ dev₂ dev₃ dev' : Device} (h : Unconfigured dev)
    {setupData setupData' : SetupData} {buf buf' : Addr} {len len' : Int} {err err' : Error}
    {m m' : Dma} {trb trb' : Trb} (hstart : dev.startInitialize = .ok (err, dev₁))
    (hdecode : decodeTransferEvent m dev₁ trb = (.control setupData buf len, dev₂))
    (hphase1 : initializePhase1 m dev₂ buf = .ok (err', dev₃))
    (hdecode' : decodeTransferEvent m' dev₃ trb' = (.control setupData' buf' len', dev')) :
    Unconfigured dev' := by
  have h₁ : Unconfigured { dev with isInitialized := false, initializePhase := 1 } :=
    ⟨idle_of_eq h.idle rfl rfl, rfl, h.classDrivers, h.waiters⟩
  unfold startInitialize at hstart
  obtain ⟨request, hrequest⟩ := getDescriptor_eq
    { dev with isInitialized := false, initializePhase := 1 } kDeviceDescriptor 0 dev.buffer 256
  have h₂ := h₁.requested (by decide) (by decide) (hrequest.symm.trans hstart) hdecode
  obtain ⟨numConfigurations, hphase1⟩ := initializePhase1_request hphase1
  have h₃ : Unconfigured { dev₂ with
      numConfigurations := numConfigurations
      configIndex := 0
      initializePhase := 2 } :=
    ⟨idle_of_eq h₂.idle rfl rfl, h₂.isInitialized, h₂.classDrivers, h₂.waiters⟩
  obtain ⟨request', hrequest'⟩ := getDescriptor_eq
    { dev₂ with
      numConfigurations := numConfigurations
      configIndex := 0
      initializePhase := 2 } kConfigurationDescriptor 0 dev₂.buffer 256
  exact h₃.requested (by decide) (by decide) (hrequest'.symm.trans hphase1) hdecode'

/-- The completion of SET_CONFIGURATION in phase 3. -/
theorem continueInitialize_setConfiguration (dev : Device) (m : Dma) (obs : DefaultObservers)
    (pool : Usb.Pool) {setupData : SetupData} (buf : Addr) (len : Int)
    (hphase : dev.initializePhase = 3) (hrequest : setupData.request = kSetConfiguration) :
    continueInitialize m obs dev pool setupData buf len =
      dev.initializePhase3.bind fun result => .ok (result.1, result.2, pool) := by
  unfold continueInitialize
  dsimp only
  rw [hphase, if_neg (by decide), if_neg (by decide), if_pos rfl, if_pos hrequest]
  rfl

/-- The completion of SET_CONFIGURATION initializes the device, as long as the recorded
endpoints have their drivers. -/
theorem Selected.completes {dev dev₁ : Device} {b : List (BitVec 8)} {len k j : Nat} {p : Addr}
    (h : Selected dev b len k j p) (m : Dma) (obs : DefaultObservers) (pool : Usb.Pool) {trb : Trb}
    {setupData : SetupData} {buf : Addr} {len' : Int}
    (hdecode : decodeTransferEvent m dev trb = (.control setupData buf len', dev₁))
    (hrequest : setupData.request = kSetConfiguration) :
    ∃ dev', onTransferEventReceived m obs dev pool trb = .ok (.kSuccess, dev', pool) ∧
      dev'.isInitialized = true ∧ dev'.numEpConfigs = dev.numEpConfigs ∧
      dev'.epConfigs = dev.epConfigs := by
  obtain ⟨-, rfl⟩ := decodeTransferEvent_control_cases hdecode
  obtain ⟨drivers, hset, -⟩ := h.setEndpoints (dev.setupStageMap.delete trb.parameter)
  have hphase3 : initializePhase3
      { dev with setupStageMap := dev.setupStageMap.delete trb.parameter } =
        .ok (.kSuccess, { dev with
          setupStageMap := dev.setupStageMap.delete trb.parameter
          drivers := drivers
          initializePhase := 4
          isInitialized := true }) :=
    bind_eq_ok.mpr ⟨_, hset, rfl⟩
  have hcontinue := continueInitialize_setConfiguration
    { dev with setupStageMap := dev.setupStageMap.delete trb.parameter } m obs pool buf len'
    h.initializePhase hrequest
  rw [hphase3, bind_ok] at hcontinue
  have hreceived : onTransferEventReceived m obs dev pool trb = continueInitialize m obs
      { dev with setupStageMap := dev.setupStageMap.delete trb.parameter } pool setupData buf
      len' := by
    rw [onTransferEventReceived, hdecode]
    dsimp only
    rw [complete, onControlCompleted]
    exact if_neg (by rw [h.isInitialized]; decide)
  exact ⟨_, hreceived.trans hcontinue, rfl, rfl, rfl⟩

/-- A configured device has the endpoints of the descriptors. -/
theorem configured_epConfigs (dev : Device) (p : Addr) (d : HidDriver) {endpoints : List Descriptor}
    {n : Fin 16} {desc : Descriptor} (hdesc : endpoints[n.val]? = some desc) :
    (configured dev p d (endpoints.map Descriptor.epConfig)).epConfigs n = desc.epConfig := by
  change (endpoints.map Descriptor.epConfig).getD n.val (dev.epConfigs n) = _
  rw [List.getD_eq_getElem?_getD, List.getElem?_map, hdesc]
  rfl

/-- An endpoint of a descriptor has a ring, unless its number is 0. -/
theorem hasRing_epConfig {dev : Device} {n : Fin 16} {desc : Descriptor}
    (hconfig : dev.epConfigs n = desc.epConfig) (hnumber : desc.epConfig.epId.number ≠ 0) :
    dev.HasRing n.val = true := by
  have hrange := epConfig_number desc
  unfold EndpointID.number at hnumber hrange
  refine (hasRing_iff n.isLt).mpr ?_
  rw [hconfig]
  exact ⟨_, dif_pos (by unfold EndpointID.address; omega)⟩

section WellFormed

variable {dev₀ : Device} {conf i : Descriptor} {rest after : List Descriptor} {kind : HidKind}
  {pool : Usb.Pool}

/-- **A well-formed configuration is selected**, and an event that completes the request is on
its way. -/
theorem exists_selected (h₀ : Unconfigured dev₀) (hwf : ∀ d ∈ conf :: rest, d.WellFormed)
    (hconf : conf.type = kConfigurationDescriptor)
    (hfirst : firstSupported rest = some (i, kind, after))
    (hendpoints : (endpointsOf after).length = i.interface.numEndpoints.toNat)
    (hfits : i.interface.numEndpoints.toNat ≤ 16)
    (hpool : (pool.allocMem hidSizeOf 0 0).1 ≠ nullptr) (obs : DefaultObservers) :
    ∃ dev pool' k j p trb setupData dev',
      initializePhase2 (bufferOf (conf :: rest).flatten) obs dev₀ pool 0x2000c8
        (conf :: rest).flatten.length = .ok (.kSuccess, dev, pool') ∧
      Selected dev (conf :: rest).flatten (conf :: rest).flatten.length k j p ∧
      (∀ m, decodeTransferEvent m dev trb = (.control setupData nullptr 0, dev')) ∧
      setupData.request = kSetConfiguration ∧ dev.numEpConfigs = (endpointsOf after).length ∧
      ∀ n : Fin 16, ∀ desc, (endpointsOf after)[n.val]? = some desc →
        dev.epConfigs n = desc.epConfig := by
  obtain ⟨m, hm⟩ : ∃ m, bufferOf (conf :: rest).flatten = m := ⟨_, rfl⟩
  have hbytes : m.bytes 0x2000c8 = (conf :: rest).flatten := by
    rw [← hm]
    rfl
  have hbuf : (0x2000c8 : Addr) ≠ nullptr := by decide
  have hannounced : ∀ i' kind' after', firstSupported rest = some (i', kind', after') →
      (endpointsOf after').length = i'.interface.numEndpoints.toNat ∧
        i'.interface.numEndpoints.toNat ≤ 16 := by
    intro i' kind' after' hfirst'
    obtain ⟨rfl, -, rfl⟩ : i = i' ∧ kind = kind' ∧ after = after' := by
      simpa using hfirst.symm.trans hfirst'
    exact ⟨hendpoints, hfits⟩
  have hphase2 := (@initializePhase2_wellFormed m obs dev₀ pool 0x2000c8 conf rest hbuf hbytes hwf
    hconf hpool hannounced).2 i kind after hfirst
  -- What follows does not depend on where the driver lies.
  obtain ⟨⟨p, pool₁⟩, hblock⟩ : ∃ block, pool.allocMem hidSizeOf 0 0 = block := ⟨_, rfl⟩
  rw [hblock] at hphase2
  obtain ⟨d, hd⟩ : ∃ d, newHidDriver kind i.interface.interfaceNumber (obs.count kind) = d :=
    ⟨_, rfl⟩
  rw [hd] at hphase2
  have hidle : RequestSystem.Idle
      (configured dev₀ p d ((endpointsOf after).map Descriptor.epConfig)) :=
    idle_of_eq h₀.idle rfl rfl
  obtain ⟨dev₁, trb, dev₁', hset, hdecode, -⟩ :=
    hidle.serve (setConfigurationData ((conf :: rest).flatten.getD 5 0)) nullptr
  rw [control, if_neg (by decide)] at hset
  have hkeeps := setConfiguration_keepsEndpoints hset
  have hset' : (configured dev₀ p d ((endpointsOf after).map Descriptor.epConfig)).setConfiguration
      kDefaultControlPipeID ((conf :: rest).flatten.getD 5 0) = .ok (.kSuccess, dev₁) := hset
  rw [hset'] at hphase2
  have hlen : ((conf :: rest).flatten.length : Int) ≤ (m.bytes 0x2000c8).length := by
    rw [hbytes]
  rcases h₀.initializePhase2 hlen hphase2 with rfl | ⟨k, j, p', hselected⟩
  · exact absurd (hdecode m) (idle_no_completion h₀.idle)
  · rw [hbytes] at hselected
    rw [hm]
    refine ⟨dev₁, pool₁, k, j, p', trb, _, dev₁', hphase2, hselected, hdecode, rfl, ?_, ?_⟩
    · rw [hkeeps.numEpConfigs]
      exact List.length_map _
    · intro n desc hdesc
      rw [hkeeps.epConfigs]
      exact configured_epConfigs dev₀ p d hdesc

/-- **Every well-formed configuration can be set up**: one with a supported interface, with
endpoint numbers other than 0 and with the memory that its driver and its rings take. -/
theorem exists_setUp (h₀ : Unconfigured dev₀) (hwf : ∀ d ∈ conf :: rest, d.WellFormed)
    (hconf : conf.type = kConfigurationDescriptor)
    (hfirst : firstSupported rest = some (i, kind, after))
    (hendpoints : (endpointsOf after).length = i.interface.numEndpoints.toNat)
    (hfits : i.interface.numEndpoints.toNat ≤ 16)
    (hnumbers : ∀ d ∈ endpointsOf after, d.epConfig.epId.number ≠ 0)
    (hpool : (pool.allocMem hidSizeOf 0 0).1 ≠ nullptr)
    (hrings : ∀ n < (endpointsOf after).length, (afterRings pool n).Serves (ringRequests.take 1))
    (obs : DefaultObservers) :
    ∃ dev, SetUp dev₀ dev ∧ dev.numEpConfigs = (endpointsOf after).length ∧
      ∀ n : Fin 16, ∀ desc, (endpointsOf after)[n.val]? = some desc →
        dev.epConfigs n = desc.epConfig := by
  obtain ⟨dev₁, pool₁, k, j, p, trb, setupData, dev₁', hphase2, hselected, hdecode, hrequest,
    hnum₁, hconfigs₁⟩ := exists_selected h₀ hwf hconf hfirst hendpoints hfits hpool obs
  obtain ⟨dev₂, hevent, hinit, hnum₂, hconfigs₂⟩ :=
    hselected.completes (bufferOf (conf :: rest).flatten) obs pool (hdecode _) hrequest
  have hnum : dev₂.numEpConfigs = (endpointsOf after).length := hnum₂.trans hnum₁
  have hconfigs : ∀ n : Fin 16, ∀ desc, (endpointsOf after)[n.val]? = some desc →
      dev₂.epConfigs n = desc.epConfig := by
    rw [hconfigs₂]
    exact hconfigs₁
  have hreaches : ReachesEndpoint dev₂.prepareEndpoints pool dev₂.numEpConfigs := by
    intro n hn
    rw [hnum] at hn
    have hn16 : n < 16 := by omega
    have hdesc := List.getElem?_eq_getElem hn
    have hconfig : dev₂.prepareEndpoints.epConfigs ⟨n, hn16⟩ = (endpointsOf after)[n].epConfig :=
      hconfigs ⟨n, hn16⟩ _ hdesc
    exact ⟨hasRing_epConfig hconfig (hnumbers _ (List.getElem_mem hn)), hrings n hn⟩
  obtain ⟨dev₃, pool₃, hloop⟩ :=
    (@configureEndpointLoop_returns_iff _ 3 pool dev₂.numEpConfigs).mpr hreaches
  obtain ⟨transferRings, inputContext, hdev₃⟩ := configureEndpointLoop_fields _ hloop
  have hsetUp : SetUp dev₀ { dev₃ with slotContext := dev₃.slotContext } :=
    .intro (Int.le_refl _) hphase2 hevent hinit hloop
  refine ⟨_, hsetUp, ?_, ?_⟩
  · rw [hdev₃]
    exact hnum
  · intro n desc hdesc
    rw [hdev₃]
    exact hconfigs n desc hdesc

end WellFormed

/-- A device with its control ring, which has been asked for its configuration descriptor. -/
def asked : Device := { ControlSystem.sampleAlloc.2.1 with initializePhase := 2 }

/-- The device of the examples has answered for its device descriptor and is still unconfigured.
-/
theorem asked_unconfigured : Unconfigured asked where
  idle := by
    obtain ⟨tr, hbuf, halloc⟩ := ControlSystem.sampleAlloc_eq
    have hinv := ControlSystem.inv_start rfl halloc hbuf
    have hidle : RequestSystem.Idle ControlSystem.sampleAlloc.2.1 := ⟨_, tr, [], hinv, rfl, rfl⟩
    exact idle_of_eq hidle rfl rfl
  isInitialized := rfl
  classDrivers _ := rfl
  waiters := by
    rw [show asked.eventWaiters = .empty nullptr from rfl]
    exact ArrayMap.entries_empty nullptr

/-- The configuration descriptor of a keyboard with two endpoints. -/
def keyboardConfiguration : Descriptor := [9, 2, 41, 0, 1, 1, 0, 160, 50]

/-- The descriptors behind it: its interface, a HID descriptor, the interrupt-IN endpoint 1 and
an interrupt-OUT endpoint. -/
def keyboardDescriptors (address : BitVec 8) : List Descriptor :=
  [[9, 4, 0, 0, 2, 3, 1, 1, 0], [9, 33, 17, 1, 0, 1, 34, 63, 0], [7, 5, 0x81, 3, 8, 0, 10],
    [7, 5, address, 3, 8, 0, 10]]

/-- What holds of both endpoints of a device with two of them holds of all. -/
theorem forall_of_two {dev : Device} (P : EndpointConfig → Prop) (hnum : dev.numEpConfigs = 2)
    (hfirst : P (dev.epConfigs ⟨0, by decide⟩)) (hsecond : P (dev.epConfigs ⟨1, by decide⟩)) :
    ∀ i : Fin 16, i.val < dev.numEpConfigs → P (dev.epConfigs i) := by
  intro i hi
  rw [hnum] at hi
  rcases Nat.le_one_iff_eq_zero_or_eq_one.mp (Nat.le_of_lt_succ hi) with hzero | hone
  · rw [show i = ⟨0, by decide⟩ from Fin.ext hzero]
    exact hfirst
  · rw [show i = ⟨1, by decide⟩ from Fin.ext hone]
    exact hsecond

/-- A keyboard with two endpoints, the first of number 1 and the second of number 1 or 2, gets
through its set-up. -/
theorem keyboard_setUp {address : BitVec 8} (haddress : address = 1 ∨ address = 2) :
    ∃ dev, SetUp asked dev ∧ dev.numEpConfigs = 2 ∧
      (dev.epConfigs ⟨0, by decide⟩).epId.number = 1 ∧
      (dev.epConfigs ⟨1, by decide⟩).epId.number = (address.toNat : Int) := by
  have hwf : ∀ d ∈ keyboardConfiguration :: keyboardDescriptors address, d.WellFormed := by
    intro d hd
    rcases List.mem_cons.mp hd with rfl | hd
    · exact ⟨by decide, by decide, by decide, by decide, by decide⟩
    · rcases haddress with rfl | rfl
      · fin_cases hd <;> exact ⟨by decide, by decide, by decide, by decide, by decide⟩
      · fin_cases hd <;> exact ⟨by decide, by decide, by decide, by decide, by decide⟩
  have hnumbers : ∀ d ∈ endpointsOf (keyboardDescriptors address).tail,
      d.epConfig.epId.number ≠ 0 := by
    rcases haddress with rfl | rfl
    · decide
    · decide
  have hpool : ((Usb.Pool.init Usb.samplePool).allocMem hidSizeOf 0 0).1 ≠ nullptr := by decide
  have hrings : ∀ n < 2, (afterRings (Usb.Pool.init Usb.samplePool) n).Serves
      (ringRequests.take 1) := by decide +kernel
  obtain ⟨dev, hsetUp, hnum, hconfigs⟩ := exists_setUp asked_unconfigured hwf (by decide) rfl rfl
    (by decide) hnumbers hpool hrings ⟨true, true⟩
  refine ⟨dev, hsetUp, hnum, ?_, ?_⟩
  · rw [hconfigs ⟨0, by decide⟩ [7, 5, 0x81, 3, 8, 0, 10] rfl]
    decide
  · rw [hconfigs ⟨1, by decide⟩ [7, 5, address, 3, 8, 0, 10] rfl]
    rcases haddress with rfl | rfl
    · decide
    · decide

/-! ## One endpoint number -/

/-- **Every class driver is configured once** if and only if all endpoints have the same number.
The device has been set up with a configuration whose endpoint numbers are not 0. -/
theorem configuresOnce_iff {dev₀ dev : Device} (h₀ : Unconfigured dev₀) (h : SetUp dev₀ dev)
    (hnumbers : ∀ i : Fin 16, i.val < dev.numEpConfigs → (dev.epConfigs i).epId.number ≠ 0) :
    ConfiguresOnce dev ↔ ∀ i j : Fin 16, i.val < dev.numEpConfigs → j.val < dev.numEpConfigs →
      (dev.epConfigs i).epId.number = (dev.epConfigs j).epId.number := by
  obtain ⟨b, len, k, j, p, htaken, hready⟩ := h.ready h₀ hnumbers
  rw [hready.configuresOnce]
  constructor
  · intro hone i i' hi hi'
    have hnumber : ∀ x : Fin 16, x.val < dev.numEpConfigs →
        ∃ n : Fin 16, (dev.epConfigs x).epId.number = n.val ∧ dev.classDrivers n = p := by
      intro x hx
      obtain ⟨desc, -, hdesc⟩ := List.mem_map.mp (List.mem_of_getElem? (htaken.configs x hx))
      have hrange := epConfig_number desc
      rw [hdesc] at hrange
      obtain ⟨n, hn⟩ := Int.eq_ofNat_of_zero_le hrange.1
      have hlt : n < 16 := by omega
      exact ⟨⟨n, hlt⟩, hn, (htaken.classDriver_iff hready.nonnull ⟨n, hlt⟩).mpr ⟨x, hx, hn⟩⟩
    obtain ⟨n, hn, hclass⟩ := hnumber i hi
    obtain ⟨n', hn', hclass'⟩ := hnumber i' hi'
    rw [hn, hn', hone n n' hclass hclass']
  · intro hsame n n' hclass hclass'
    obtain ⟨i, hi, hn⟩ := (htaken.classDriver_iff hready.nonnull n).mp hclass
    obtain ⟨i', hi', hn'⟩ := (htaken.classDriver_iff hready.nonnull n').mp hclass'
    have hnumber := hsame i i' hi hi'
    rw [hn, hn'] at hnumber
    exact Fin.ext (Int.ofNat.inj hnumber)

/-- A keyboard whose two endpoints have the number 1 has one entry, so its driver is configured
once. -/
theorem configuresOnce_iff_one_number : ∃ dev, SetUp asked dev ∧ dev.numEpConfigs = 2 ∧
    ConfiguresOnce dev := by
  obtain ⟨dev, hsetUp, hnum, hfirst, hsecond⟩ := keyboard_setUp (Or.inl rfl)
  have hall : ∀ i : Fin 16, i.val < dev.numEpConfigs → (dev.epConfigs i).epId.number = 1 :=
    forall_of_two (fun conf => conf.epId.number = 1) hnum hfirst hsecond
  refine ⟨dev, hsetUp, hnum, (configuresOnce_iff asked_unconfigured hsetUp ?_).mpr ?_⟩
  · intro i hi
    rw [hall i hi]
    decide
  · intro i j hi hj
    rw [hall i hi, hall j hj]

/-- **A keyboard whose two endpoints have the numbers 1 and 2** has two entries for one driver,
which is called twice. -/
theorem two_endpoint_numbers : ∃ dev p, SetUp asked dev ∧ dev.numEpConfigs = 2 ∧
    dev.IsClassDriver p ∧ (dev.endpointsConfiguredCalls 16 0).count p ≠ 1 ∧
    ¬ ConfiguresOnce dev := by
  obtain ⟨dev, hsetUp, hnum, hfirst, hsecond⟩ := keyboard_setUp (Or.inr rfl)
  have hnumbers : ∀ i : Fin 16, i.val < dev.numEpConfigs → (dev.epConfigs i).epId.number ≠ 0 := by
    refine forall_of_two (fun conf => conf.epId.number ≠ 0) hnum ?_ ?_
    · rw [hfirst]
      decide
    · rw [hsecond]
      decide
  obtain ⟨b, len, k, j, p, htaken, hready⟩ := hsetUp.ready asked_unconfigured hnumbers
  have hone : dev.classDrivers ⟨1, by decide⟩ = p :=
    (htaken.classDriver_iff hready.nonnull _).mpr ⟨⟨0, by decide⟩, by rw [hnum]; decide, hfirst⟩
  have htwo : dev.classDrivers ⟨2, by decide⟩ = p :=
    (htaken.classDriver_iff hready.nonnull _).mpr ⟨⟨1, by decide⟩, by rw [hnum]; decide, hsecond⟩
  have hclass : dev.IsClassDriver p := ⟨hready.nonnull, _, hone⟩
  have hdiffer : ¬ ∀ j k, dev.classDrivers j = p → dev.classDrivers k = p → j = k := by
    intro hsame
    exact absurd (hsame _ _ hone htwo) (by decide)
  refine ⟨dev, p, hsetUp, hnum, hclass, ?_, ?_⟩
  · rw [Ne, count_calls_eq_one_iff hready.canConfigure hclass]
    exact hdiffer
  · rw [hready.configuresOnce]
    exact hdiffer

end Device

end Mikanos.Xhci
