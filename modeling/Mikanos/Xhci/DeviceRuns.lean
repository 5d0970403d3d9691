import Mikanos.Usb.DescriptorSafety
import Mikanos.Xhci.ControllerSteps
import Mathlib.Logic.Relation

/-!
# Runs of one device

Between the allocation of a device object and the end, the driver calls it from
`AddressDevice`, `InitializeDevice`, `ConfigureEndpoints` and
`CompleteConfiguration` and passes the completions of Transfer Events to it.
`DeviceStep` is the relation of these calls, for arbitrary arguments and memory
contents.  `Sent` is what is known of the bytes that answer the request for a
configuration descriptor.

The configuration descriptor is the only thing that decides about endpoints:
every other call keeps the table, `class_drivers_` and the interrupt endpoints
of the class drivers (`KeepsEndpoints`).  So a device is always in one of three
stages (`Stage`): it has no endpoints yet; it has taken over those that the walk
over one configuration descriptor saw; or its class driver knows them, too.
-/

namespace Mikanos.Xhci.Device

open Relation Mikanos.Usb

/-! ## Calls that do not decide about endpoints -/

/-- The endpoints of the device and of its class drivers are unchanged.  Only
members of `class_drivers_` become waiters. -/
structure KeepsEndpoints (dev dev' : Device) : Prop where
  isInitialized : dev'.isInitialized = dev.isInitialized
  initializePhase : dev'.initializePhase = dev.initializePhase
  epConfigs : dev'.epConfigs = dev.epConfigs
  numEpConfigs : dev'.numEpConfigs = dev.numEpConfigs
  classDrivers : dev'.classDrivers = dev.classDrivers
  drivers : ∀ p d', dev'.drivers p = some d' →
    ∃ d, dev.drivers p = some d ∧ d'.epInterruptIn = d.epInterruptIn
  waiters : ∀ e ∈ dev'.eventWaiters.entries, e ∈ dev.eventWaiters.entries ∨
    ∃ i, dev.classDrivers i = e.2

theorem KeepsEndpoints.refl (dev : Device) : KeepsEndpoints dev dev :=
  ⟨rfl, rfl, rfl, rfl, rfl, fun _ d hd => ⟨d, hd, rfl⟩, fun _ he => Or.inl he⟩

/-- Two calls that keep the endpoints keep them one after the other; this is how the frame of a
handler is put together. -/
theorem KeepsEndpoints.trans {a b c : Device} (hab : KeepsEndpoints a b)
    (hbc : KeepsEndpoints b c) : KeepsEndpoints a c where
  isInitialized := hbc.isInitialized.trans hab.isInitialized
  initializePhase := hbc.initializePhase.trans hab.initializePhase
  epConfigs := hbc.epConfigs.trans hab.epConfigs
  numEpConfigs := hbc.numEpConfigs.trans hab.numEpConfigs
  classDrivers := hbc.classDrivers.trans hab.classDrivers
  drivers := by
    intro p d'' hd''
    obtain ⟨d', hd', hep'⟩ := hbc.drivers p d'' hd''
    obtain ⟨d, hd, hep⟩ := hab.drivers p d' hd'
    exact ⟨d, hd, hep'.trans hep⟩
  waiters := by
    intro e he
    rcases hbc.waiters e he with he | ⟨i, hi⟩
    · exact hab.waiters e he
    · exact Or.inr ⟨i, hab.classDrivers ▸ hi⟩

/-- An update that leaves all these fields alone. -/
theorem KeepsEndpoints.of_fields {dev dev' : Device}
    (hinit : dev'.isInitialized = dev.isInitialized)
    (hphase : dev'.initializePhase = dev.initializePhase)
    (hconfigs : dev'.epConfigs = dev.epConfigs) (hnum : dev'.numEpConfigs = dev.numEpConfigs)
    (hclass : dev'.classDrivers = dev.classDrivers) (hdrivers : dev'.drivers = dev.drivers)
    (hwaiters : dev'.eventWaiters = dev.eventWaiters) : KeepsEndpoints dev dev' := by
  refine ⟨hinit, hphase, hconfigs, hnum, hclass, fun p d hd => ⟨d, ?_, rfl⟩, fun e he => ?_⟩
  · rw [← hdrivers]
    exact hd
  · rw [hwaiters] at he
    exact Or.inl he

/-- A change of a class driver keeps the endpoints if the driver has the interrupt endpoint that
it had. -/
theorem setDriver_keepsEndpoints {dev : Device} {p : Addr} {d d' : HidDriver}
    (hd : dev.drivers p = some d) (hep : d'.epInterruptIn = d.epInterruptIn) :
    KeepsEndpoints dev (dev.setDriver p d') := by
  refine ⟨rfl, rfl, rfl, rfl, rfl, ?_, fun e he => Or.inl he⟩
  intro q d'' hd''
  rcases eq_or_ne q p with rfl | hne
  · change Function.update dev.drivers q (some d') q = some d'' at hd''
    rw [Function.update_self] at hd''
    cases hd''
    exact ⟨d, hd, hep⟩
  · change Function.update dev.drivers p (some d') q = some d'' at hd''
    rw [Function.update_of_ne hne] at hd''
    exact ⟨d'', hd'', rfl⟩

/-- A new waiter is the issuer of the request, so it keeps the endpoints if the issuer is a
class driver of the device. -/
theorem addWaiter_keepsEndpoints {dev : Device} {setupData : SetupData} {issuer : Addr}
    (hissuer : issuer ≠ nullptr → ∃ i, dev.classDrivers i = issuer) :
    KeepsEndpoints dev (dev.addWaiter setupData issuer) := by
  unfold addWaiter
  split
  · rename_i hne
    refine ⟨rfl, rfl, rfl, rfl, rfl, fun _ d hd => ⟨d, hd, rfl⟩, fun e he => ?_⟩
    rcases ArrayMap.mem_entries_put he with he | rfl
    · exact Or.inl he
    · exact Or.inr (hissuer hne)
  · exact .refl dev

/-- Control transfers. -/
theorem controlTransfer_keepsEndpoints {dev dev' : Device} {type : BitVec 2} {dirIn : Bool}
    {status : Trb} {epId : EndpointID} {setupData : SetupData} {buf : Addr} {len : Int}
    {issuer : Addr} {err : Error} (hissuer : issuer ≠ nullptr → ∃ i, dev.classDrivers i = issuer)
    (h : dev.controlTransfer type dirIn status epId setupData buf len issuer = .ok (err, dev')) :
    KeepsEndpoints dev dev' := by
  have hwaiter : KeepsEndpoints dev (dev.addWaiter setupData issuer) :=
    addWaiter_keepsEndpoints hissuer
  rcases controlTransfer_cases h with rfl | ⟨i, dci, pushed, rfl⟩
  · exact hwaiter
  · exact hwaiter.trans (.of_fields rfl rfl rfl rfl rfl rfl rfl)

/-- Control transfers change no driver. -/
theorem controlTransfer_drivers {dev dev' : Device} {type : BitVec 2} {dirIn : Bool}
    {status : Trb} {epId : EndpointID} {setupData : SetupData} {buf : Addr} {len : Int}
    {issuer : Addr} {err : Error}
    (h : dev.controlTransfer type dirIn status epId setupData buf len issuer = .ok (err, dev')) :
    dev'.drivers = dev.drivers := by
  have hwaiter : (dev.addWaiter setupData issuer).drivers = dev.drivers := by
    obtain ⟨eventWaiters, hadd⟩ := addWaiter_fields dev setupData issuer
    rw [hadd]
  rcases controlTransfer_cases h with rfl | ⟨i, dci, pushed, rfl⟩
  · exact hwaiter
  · exact hwaiter

/-- `SET_CONFIGURATION`. -/
theorem setConfiguration_keepsEndpoints {dev dev' : Device} {epId : EndpointID}
    {value : BitVec 8} {err : Error} (h : dev.setConfiguration epId value = .ok (err, dev')) :
    KeepsEndpoints dev dev' :=
  controlTransfer_keepsEndpoints (fun hissuer => absurd rfl hissuer) h

/-- `SET_CONFIGURATION` changes no class driver. -/
theorem setConfiguration_drivers {dev dev' : Device} {epId : EndpointID} {value : BitVec 8}
    {err : Error} (h : dev.setConfiguration epId value = .ok (err, dev')) :
    dev'.drivers = dev.drivers :=
  controlTransfer_drivers h

/-- A request for a descriptor leaves the endpoints as they are. -/
theorem getDescriptor_keepsEndpoints {dev dev' : Device} {epId : EndpointID}
    {descType descIndex : BitVec 8} {buf : Addr} {len : Int} {err : Error}
    (h : dev.getDescriptor epId descType descIndex buf len = .ok (err, dev')) :
    KeepsEndpoints dev dev' :=
  controlTransfer_keepsEndpoints (fun hissuer => absurd rfl hissuer) h

/-- A request for a descriptor calls no class driver: the drivers of the device are as they
were. -/
theorem getDescriptor_drivers {dev dev' : Device} {epId : EndpointID}
    {descType descIndex : BitVec 8} {buf : Addr} {len : Int} {err : Error}
    (h : dev.getDescriptor epId descType descIndex buf len = .ok (err, dev')) :
    dev'.drivers = dev.drivers :=
  controlTransfer_drivers h

/-- Interrupt transfers. -/
theorem interruptIn_keepsEndpoints {dev dev' : Device} {epId : EndpointID} {buf : Addr}
    {len : Int} {err : Error} (h : dev.interruptIn epId buf len = .ok (err, dev')) :
    KeepsEndpoints dev dev' := by
  rcases interruptIn_cases h with rfl | ⟨i, tr, -, rfl⟩
  · exact .refl _
  · exact .of_fields rfl rfl rfl rfl rfl rfl rfl

/-- A driver that asks for a report keeps its endpoint. -/
theorem driverOnControlCompleted_keepsEndpoints {dev dev' : Device} {p : Addr} {err : Error}
    (h : dev.driverOnControlCompleted p = .ok (err, dev')) : KeepsEndpoints dev dev' := by
  obtain ⟨d, hd, ⟨-, h⟩ | ⟨-, -, rfl⟩⟩ := driverOnControlCompleted_cases h
  · exact (setDriver_keepsEndpoints hd (by rfl)).trans (interruptIn_keepsEndpoints h)
  · exact .refl _

/-- A report changes what the driver has told its observers, and in the driver nothing else. -/
theorem driverOnDataReceived_fields {m : Dma} {p : Addr} {d d' : HidDriver}
    (h : driverOnDataReceived m p d = .ok d') :
    ∃ notified, d' = { d with notified := notified } := by
  unfold driverOnDataReceived at h
  split at h
  · obtain ⟨report, -, h⟩ := bind_eq_ok.mp h
    cases h
    exact ⟨_, rfl⟩
  · obtain ⟨x, -, h⟩ := bind_eq_ok.mp h
    obtain ⟨y, -, h⟩ := bind_eq_ok.mp h
    cases h
    exact ⟨_, rfl⟩

/-- Keeping a report changes the copy of the previous one, nothing else. -/
theorem keepReport_fields {m : Dma} {p : Addr} {d d' : HidDriver} {len : Int}
    (h : keepReport m p d len = .ok d') :
    ∃ previousBuf, d' = { d with previousBuf := previousBuf } := by
  unfold keepReport at h
  split at h
  · cases h
  · obtain ⟨copied, -, h⟩ := bind_eq_ok.mp h
    cases h
    exact ⟨_, rfl⟩

/-- A report that is passed on, and the request for the next one, change no endpoint of a
driver. -/
theorem driverOnInterruptCompleted_keepsEndpoints {m : Dma} {dev dev' : Device} {p buf : Addr}
    {epId : EndpointID} {len : Int} {err : Error}
    (h : driverOnInterruptCompleted m dev p epId buf len = .ok (err, dev')) :
    KeepsEndpoints dev dev' := by
  unfold driverOnInterruptCompleted at h
  obtain ⟨d, hd, h⟩ := bind_eq_ok.mp h
  split at h
  · obtain ⟨d₁, hreceived, h⟩ := bind_eq_ok.mp h
    obtain ⟨d₂, hkept, h⟩ := bind_eq_ok.mp h
    obtain ⟨notified, rfl⟩ := driverOnDataReceived_fields hreceived
    obtain ⟨previousBuf, rfl⟩ := keepReport_fields hkept
    exact (setDriver_keepsEndpoints (driverAt_eq_ok hd) (by rfl)).trans
      (interruptIn_keepsEndpoints h)
  · cases h
    exact .refl dev

/-- The completion of an interrupt transfer leaves the drivers at the endpoints they had, also
where the driver asks for the next report. -/
theorem onInterruptCompleted_keepsEndpoints {m : Dma} {dev dev' : Device} {epId : EndpointID}
    {buf : Addr} {len : Int} {err : Error}
    (h : onInterruptCompleted m dev epId buf len = .ok (err, dev')) : KeepsEndpoints dev dev' := by
  unfold onInterruptCompleted at h
  split at h
  · dsimp only at h
    split at h
    · exact driverOnInterruptCompleted_keepsEndpoints h
    · cases h
      exact .refl dev
  · cases h

/-- `OnEndpointsConfigured` of a class driver: the issuer is a member of `class_drivers_`. -/
theorem driverOnEndpointsConfigured_keepsEndpoints {dev dev' : Device} {k : Fin 16} {err : Error}
    (h : dev.driverOnEndpointsConfigured (dev.classDrivers k) = .ok (err, dev')) :
    KeepsEndpoints dev dev' := by
  unfold driverOnEndpointsConfigured at h
  obtain ⟨d, hd, h⟩ := bind_eq_ok.mp h
  exact (setDriver_keepsEndpoints (driverAt_eq_ok hd) (by rfl)).trans
    (controlTransfer_keepsEndpoints (fun _ => ⟨k, rfl⟩) h)

/-- The drivers begin, by induction over those that are left, and none of them changes an
endpoint. -/
theorem onEndpointsConfiguredFrom_keepsEndpoints (left : Nat) {i : Nat} {dev dev' : Device}
    {err : Error} (h : dev.onEndpointsConfiguredFrom left i = .ok (err, dev')) :
    KeepsEndpoints dev dev' :=
  onEndpointsConfiguredFrom_induction KeepsEndpoints .refl .trans
    (fun _ hcall => driverOnEndpointsConfigured_keepsEndpoints hcall) left h

/-- Decoding a Transfer Event. -/
theorem decodeTransferEvent_keepsEndpoints (m : Dma) (dev : Device) (trb : Trb) :
    KeepsEndpoints dev (decodeTransferEvent m dev trb).2 := by
  rcases decodeTransferEvent_cases m dev trb with hdecoded | hdecoded
  · rw [hdecoded]
    exact .refl dev
  · rw [hdecoded]
    exact .of_fields rfl rfl rfl rfl rfl rfl rfl

/-- A new transfer ring. -/
theorem allocTransferRing_keepsEndpoints (dev : Device) (i : Fin 31) (n : Nat)
    (pool : Usb.Pool) : KeepsEndpoints dev (dev.allocTransferRing i n pool).2.1 := by
  unfold allocTransferRing
  generalize placeRing n (pool.allocArray 32 1 64 4096) = placed
  exact .of_fields rfl rfl rfl rfl rfl rfl rfl

/-- The control ring concerns the contexts. -/
theorem useControlRing_keepsEndpoints {result : Option Ring × Device × Usb.Pool} {dev' : Device}
    {pool' : Usb.Pool} (h : useControlRing result = .ok (dev', pool')) :
    KeepsEndpoints result.2.1 dev' := by
  unfold useControlRing at h
  split at h
  · cases h
  · cases h
    exact .of_fields rfl rfl rfl rfl rfl rfl rfl

/-- `AddressDevice` on the device. -/
theorem address_keepsEndpoints {dev dev' : Device} {portId : BitVec 8} {speed : BitVec 4}
    {pool pool' : Usb.Pool}
    (h : useControlRing ((dev.prepareAddress portId speed).allocTransferRing 0 32 pool) =
      .ok (dev', pool')) : KeepsEndpoints dev dev' := by
  have hprepare : KeepsEndpoints dev (dev.prepareAddress portId speed) :=
    .of_fields rfl rfl rfl rfl rfl rfl rfl
  exact hprepare.trans ((allocTransferRing_keepsEndpoints _ 0 32 pool).trans
    (useControlRing_keepsEndpoints h))

/-- The loop of `ConfigureEndpoints` changes the rings and the input context, and no other field
of the device. -/
theorem configureEndpointLoop_fields {portSpeed : BitVec 4} {dev : Device} {pool : Usb.Pool}
    (n : Nat) : ∀ {dev' : Device} {pool' : Usb.Pool},
      configureEndpointLoop portSpeed dev pool n = .ok (dev', pool') →
        ∃ transferRings inputContext,
          dev' = { dev with transferRings := transferRings, inputContext := inputContext } := by
  induction n with
  | zero =>
      intro dev' pool' h
      cases h
      exact ⟨_, _, rfl⟩
  | succ n ih =>
      intro dev' pool' h
      obtain ⟨dev₁, pool₁, hn, i, hrest, -, h⟩ := configureEndpointLoop_succ h
      obtain ⟨transferRings, inputContext, rfl⟩ := ih hrest
      unfold allocTransferRing at h
      generalize placeRing 32 (pool₁.allocArray 32 1 64 4096) = placed at h
      obtain ⟨inputContext₂, hdev'⟩ := useEndpointRing_fields h
      exact ⟨_, inputContext₂, hdev'⟩

/-- The loop that makes the rings of the endpoints only reads the table, so every driver stays
at its endpoints. -/
theorem configureEndpointLoop_keepsEndpoints {portSpeed : BitVec 4} {dev dev' : Device}
    {pool pool' : Usb.Pool} (n : Nat)
    (h : configureEndpointLoop portSpeed dev pool n = .ok (dev', pool')) :
    KeepsEndpoints dev dev' := by
  obtain ⟨transferRings, inputContext, rfl⟩ := configureEndpointLoop_fields n h
  exact .of_fields rfl rfl rfl rfl rfl rfl rfl

/-! ## What the configuration descriptor decides -/

/-- The walk over `b` has seen all endpoints that its first supported interface
announces, in `j` descriptors behind number `k + 1`. -/
structure Walked (b : List (BitVec 8)) (len k j : Nat) : Prop where
  first : FirstInterface b len k
  takes : ∀ t, t < j → Takes b len (k + 1) (announced b (k + 1)) t
  enough : announced b (k + 1) ≤ (endpointsSeen b (k + 1) j).length

/-- There is only one such walk over the received bytes: where the search stops and where the
endpoints end are determined by them. -/
theorem Walked.unique {b : List (BitVec 8)} {len k k' j j' : Nat} (h : Walked b len k j)
    (h' : Walked b len k' j') : k = k' ∧ j = j' := by
  have hk : k = k' := by
    rcases Nat.lt_trichotomy k k' with hlt | heq | hgt
    · exact absurd (h'.first.skips k hlt) h.first.stops
    · exact heq
    · exact absurd (h.first.skips k' hgt) h'.first.stops
  subst hk
  refine ⟨rfl, ?_⟩
  rcases Nat.lt_trichotomy j j' with hlt | heq | hgt
  · exact absurd (h'.takes j hlt).more (Nat.not_lt.mpr h.enough)
  · exact heq
  · exact absurd (h.takes j' hgt).more (Nat.not_lt.mpr h'.enough)

/-- The configurations of these endpoints. -/
def endpointConfigs (b : List (BitVec 8)) (k j : Nat) : List EndpointConfig :=
  (endpointsSeen b (k + 1) j).map Descriptor.epConfig

/-- Received data of negative length holds no descriptor: the loop ends at once, after its look
at the first byte. -/
theorem interfaceLoop_negative {m : Dma} {obs : DefaultObservers} {buf : Addr} {len : Int}
    (hlen : len < 0) (loopFuel fuel : Nat) (dev : Device) (pool : Usb.Pool) :
    interfaceLoop m obs (loopFuel + 1) (fuel + 1) ⟨buf, len, 0⟩ dev pool =
      (m.byte buf 0).bind fun _ => .ok (nullptr, dev, pool) := by
  rw [interfaceLoop_succ]
  change (((⟨buf, len, 0⟩ : Reader).next m).bind _).bind _ = _
  cases hbyte : m.byte buf 0 with
  | error f =>
      unfold Reader.next
      rw [hbyte]
      rfl
  | ok length =>
      have hend : ¬ ((0 + length.toNat : Nat) : Int) < len := by omega
      have hnext : (⟨buf, len, 0⟩ : Reader).next m =
          .ok (none, ⟨buf, len, 0 + length.toNat⟩) := by
        unfold Reader.next
        rw [hbyte]
        change Except.ok (if ((0 + length.toNat : Nat) : Int) < len then _ else none, _) = _
        rw [if_neg hend]
      rw [hnext]
      rfl

section Phase2

variable {m : Dma} {obs : DefaultObservers} {dev dev' : Device} {pool pool' : Usb.Pool}
  {buf : Addr} {err : Error}

/-- The end of `InitializePhase2` selects the configuration if a class driver was found, and
does nothing otherwise. -/
theorem selectConfiguration_cases {classDriver : Addr}
    (h : selectConfiguration m buf classDriver dev pool = .ok (err, dev', pool')) :
    (classDriver = nullptr ∧ dev' = dev) ∨
      (classDriver ≠ nullptr ∧ ∃ value, setConfiguration { dev with initializePhase := 3 }
        kDefaultControlPipeID value = .ok (err, dev')) := by
  unfold selectConfiguration at h
  split at h
  · rename_i hnull
    cases h
    exact Or.inl ⟨hnull, rfl⟩
  · rename_i hne
    obtain ⟨value, -, h⟩ := bind_eq_ok.mp h
    obtain ⟨⟨err₁, dev₁⟩, hset, h⟩ := bind_eq_ok.mp h
    cases h
    exact Or.inr ⟨hne, value, hset⟩

/-- The loops of `InitializePhase2` over `len` received bytes find nothing, or all
endpoints of an interface. -/
theorem interfaceLoop_cases {len fuel : Nat} {classDriver : Addr} (hbuf : buf ≠ nullptr)
    (hlen : len ≤ (m.bytes buf).length) (hpos : 0 < (m.bytes buf).length)
    (hfuel : len + 16 < fuel)
    (h : interfaceLoop m obs fuel fuel (readerAt m buf len 0) dev pool =
      .ok (classDriver, dev', pool')) :
    (classDriver = nullptr ∧ dev' = dev) ∨
      ∃ k j d, classDriver ≠ nullptr ∧
        (∃ kind number observers, d = newHidDriver kind number observers) ∧
        Walked (m.bytes buf) len k j ∧
        { dev' with initializePhase := 3 } =
          configured dev classDriver d (endpointConfigs (m.bytes buf) k j) := by
  obtain ⟨block, hblock⟩ : ∃ block, pool.allocMem hidSizeOf 0 0 = block := ⟨_, rfl⟩
  rcases Cursor.forever_or_first (Skips (m.bytes buf) len) with hskips | ⟨k, hskips, hstop⟩
  · rw [interfaceLoop_endless hbuf hlen hpos hskips] at h
    cases h
  · cases search_end obs dev pool hbuf hlen hpos hblock (by omega : len < fuel) hskips hstop with
    | nothing _ hresult =>
        rw [hresult] at h
        cases h
        exact Or.inl ⟨rfl, rfl⟩
    | cutOff _ _ hresult =>
        rw [hresult] at h
        cases h
    | noMemory _ _ _ _ hresult =>
        rw [hresult] at h
        cases h
    | interface kind hinside hfits hsupported hkind hpool hresult =>
        rw [hresult] at h
        obtain ⟨⟨r, dev₁⟩, hloop, h⟩ := bind_eq_ok.mp h
        cases h
        generalize hdev₀ : withDriver obs dev block.1 kind _ = dev₀ at hloop
        have hcount : dev₀.numEpConfigs = 0 := by rw [← hdev₀]; rfl
        rcases Cursor.forever_or_first (Takes (m.bytes buf) len (k + 1)
          (announced (m.bytes buf) (k + 1))) with htakes | ⟨j, htakes, hends⟩
        · rw [endpointLoop_endless hbuf hlen hinside _ hcount htakes] at hloop
          cases hloop
        · cases endpoints_end hbuf hlen hinside block.1 hcount hfuel htakes hends with
          | done hdone hresult' =>
              rw [hresult'] at hloop
              cases hloop
              have hwalked : Walked (m.bytes buf) len k j :=
                ⟨⟨hskips, hinside, hfits, hsupported⟩, htakes, hdone⟩
              have hconfigured := configured_eq dev block.1
                (newHidDriver kind (descriptor (m.bytes buf) (k + 1)).interface.interfaceNumber
                  (obs.count kind)) (endpointConfigs (m.bytes buf) k j)
              rw [← hdev₀]
              exact Or.inr ⟨k, j, _, hpool, ⟨_, _, _, rfl⟩, hwalked, hconfigured⟩
          | ended _ _ hresult' =>
              rw [hresult'] at hloop
              cases hloop
          | cutOff _ _ _ hresult' =>
              rw [hresult'] at hloop
              cases hloop
          | full _ _ _ _ _ hresult' =>
              rw [hresult'] at hloop
              cases hloop

/-- **What `InitializePhase2` does** with any received data: nothing, or it
configures the device as the walk over the data says and selects the
configuration. -/
theorem initializePhase2_cases {len : Int} (hlen : len ≤ (m.bytes buf).length)
    (h : initializePhase2 m obs dev pool buf len = .ok (err, dev', pool')) :
    dev' = dev ∨
      ∃ k j p d value, p ≠ nullptr ∧
        (∃ kind number observers, d = newHidDriver kind number observers) ∧
        Walked (m.bytes buf) len.toNat k j ∧
        (configured dev p d (endpointConfigs (m.bytes buf) k j)).setConfiguration
          kDefaultControlPipeID value = .ok (err, dev') := by
  unfold initializePhase2 at h
  obtain ⟨type, htype, h⟩ := bind_eq_ok.mp h
  have hbuf : buf ≠ nullptr := by
    rintro rfl
    cases htype
  have hpos := length_pos_of_byte hbuf htype
  split at h
  · cases h
    exact Or.inl rfl
  · obtain ⟨⟨classDriver, dev₁, pool₁⟩, hloop, hselect⟩ := bind_eq_ok.mp h
    dsimp only at hselect
    rcases lt_or_ge len 0 with hneg | hnonneg
    · rw [loopFuelOf, interfaceLoop_negative hneg] at hloop
      obtain ⟨length, -, hloop⟩ := bind_eq_ok.mp hloop
      cases hloop
      rcases selectConfiguration_cases hselect with ⟨-, rfl⟩ | ⟨hne, -⟩
      · exact Or.inl rfl
      · exact absurd rfl hne
    · obtain ⟨n, rfl⟩ := Int.eq_ofNat_of_zero_le hnonneg
      rw [loopFuelOf, Int.toNat_natCast] at hloop
      rcases interfaceLoop_cases hbuf (by omega) hpos (by omega : n + 16 < n + 257) hloop with
        ⟨hnull, hsame⟩ | ⟨k, j, d, hne, hnew, hwalked, hdev₁⟩
      · rcases selectConfiguration_cases hselect with ⟨-, hlast⟩ | ⟨hne, -⟩
        · exact Or.inl (hlast.trans hsame)
        · exact absurd hnull hne
      · rcases selectConfiguration_cases hselect with ⟨hnull, -⟩ | ⟨-, value, hset⟩
        · exact absurd hnull hne
        · rw [hdev₁] at hset
          exact Or.inr ⟨k, j, classDriver, d, value, hne, hnew, hwalked, hset⟩

end Phase2

/-! ## Runs -/

/-- The completion answers the request for a configuration descriptor. -/
def AnswersConfiguration (m : Dma) (dev : Device) (setupData : SetupData) (buf : Addr) : Prop :=
  dev.isInitialized = false ∧ dev.initializePhase = 2 ∧ setupData.request = kGetDescriptor ∧
    (m.bytes buf)[1]? = some kConfigurationDescriptor

/-- A call of the driver on the device, or a write of the controller to its device
context.  Received data lies within its buffer, and the device answers the request
for a configuration descriptor with bytes that satisfy `Sent`.  A device is
initialized once: `InitializeDevice` is called when its port leaves
`kAddressingDevice`. -/
inductive DeviceStep (Sent : List (BitVec 8) → Nat → Prop) : Device → Device → Prop
  | address {dev dev' : Device} {portId : BitVec 8} {speed : BitVec 4} {pool pool' : Usb.Pool}
      (hcall : useControlRing ((dev.prepareAddress portId speed).allocTransferRing 0 32 pool) =
        .ok (dev', pool')) : DeviceStep Sent dev dev'
  | start {dev dev' : Device} {err : Error} (hphase : dev.initializePhase = 0)
      (hcall : dev.startInitialize = .ok (err, dev')) : DeviceStep Sent dev dev'
  | decode {dev : Device} {m : Dma} {trb : Trb} :
      DeviceStep Sent dev (decodeTransferEvent m dev trb).2
  | complete {m : Dma} {obs : DefaultObservers} {dev dev' : Device} {pool pool' : Usb.Pool}
      {completion : Completion} {err : Error}
      (hreceived : ∀ setupData buf len, completion = .control setupData buf len →
        len ≤ (m.bytes buf).length ∧
          (AnswersConfiguration m dev setupData buf → Sent (m.bytes buf) len.toNat))
      (hcall : complete m obs dev pool completion = .ok (err, dev', pool')) :
      DeviceStep Sent dev dev'
  | unknownSpeed {dev : Device} : DeviceStep Sent dev dev.prepareEndpoints
  | configure {dev dev' : Device} {portSpeed : BitVec 4} {pool pool' : Usb.Pool}
      (hcall : configureEndpointLoop portSpeed dev.prepareEndpoints pool dev.numEpConfigs =
        .ok (dev', pool')) : DeviceStep Sent dev dev'
  | configured {dev dev' : Device} {err : Error}
      (hcall : dev.onEndpointsConfigured = .ok (err, dev')) :
      DeviceStep Sent dev dev'
  | hardware {dev : Device} {slotContext : SlotContext} :
      DeviceStep Sent dev { dev with slotContext := slotContext }

/-- The device is reached by a run from its construction. -/
def Reached (Sent : List (BitVec 8) → Nat → Prop) (self : Addr) (slotId : BitVec 8)
    (dev : Device) : Prop :=
  ReflTransGen (DeviceStep Sent) (Device.new self slotId) dev

/-! ## Stages -/

/-- Every waiter is a class driver of the device. -/
def WaitersServed (dev : Device) : Prop :=
  ∀ e ∈ dev.eventWaiters.entries, e.2 ≠ nullptr → ∃ i, dev.classDrivers i = e.2

/-- The endpoints of the device are those that the walk over `b` saw, and all of them
belong to the class driver at `p`. -/
structure TakenOver (dev : Device) (b : List (BitVec 8)) (len k j : Nat) (p : Addr) : Prop where
  walked : Walked b len k j
  num : dev.numEpConfigs = (endpointConfigs b k j).length
  configs : ∀ i : Fin 16, i.val < dev.numEpConfigs →
    (endpointConfigs b k j)[i.val]? = some (dev.epConfigs i)
  classDrivers : ∀ i : Fin 16, dev.classDrivers i =
    if (endpointConfigs b k j).any (fun conf => conf.epId.number == i.val) then p else nullptr

/-- The kind of endpoint that a class driver receives its reports from. -/
def IsInterruptIn (conf : EndpointConfig) : Prop :=
  conf.epType = .kInterrupt ∧ conf.epId.isIn = true

instance (conf : EndpointConfig) : Decidable (IsInterruptIn conf) :=
  inferInstanceAs (Decidable (_ ∧ _))

/-- If there is an interrupt-IN endpoint, then the driver uses one. -/
def FedBy (d : HidDriver) (confs : List EndpointConfig) : Prop :=
  (∃ conf ∈ confs, IsInterruptIn conf) →
    ∃ conf ∈ confs, IsInterruptIn conf ∧ d.epInterruptIn = conf.epId

/-- What a device knows of its endpoints. -/
inductive Stage (Sent : List (BitVec 8) → Nat → Prop) (dev : Device) : Prop
  /-- Nothing, up to the configuration descriptor. -/
  | started (hphase : dev.initializePhase ≤ 2) (hinit : dev.isInitialized = false)
      (hnum : dev.numEpConfigs = 0) (hclass : ∀ i, dev.classDrivers i = nullptr)
  /-- It has taken over those of an interface. -/
  | selected {b : List (BitVec 8)} {len k j : Nat} {p : Addr}
      (hphase : dev.initializePhase = 3) (hinit : dev.isInitialized = false)
      (hsent : Sent b len) (htaken : TakenOver dev b len k j p)
  /-- And its class driver knows them. -/
  | initialized {b : List (BitVec 8)} {len k j : Nat} {p : Addr}
      (hphase : dev.initializePhase = 4) (hinit : dev.isInitialized = true)
      (hsent : Sent b len) (htaken : TakenOver dev b len k j p)
      (hfed : ∀ d, dev.drivers p = some d → FedBy d (endpointConfigs b k j))

variable {Sent : List (BitVec 8) → Nat → Prop}

/-- A table with the same fields. -/
theorem TakenOver.of_fields {dev dev' : Device} {b : List (BitVec 8)} {len k j : Nat} {p : Addr}
    (h : TakenOver dev b len k j p) (hnum : dev'.numEpConfigs = dev.numEpConfigs)
    (hconfigs : dev'.epConfigs = dev.epConfigs) (hclass : dev'.classDrivers = dev.classDrivers) :
    TakenOver dev' b len k j p := by
  refine ⟨h.walked, hnum.trans h.num, fun i hi => ?_, fun i => ?_⟩
  · rw [hconfigs]
    exact h.configs i (hnum ▸ hi)
  · rw [hclass]
    exact h.classDrivers i

/-- A call that keeps the endpoints leaves the device in the stage in which it was. -/
theorem Stage.keeps {dev dev' : Device} (h : Stage Sent dev) (hkeeps : KeepsEndpoints dev dev') :
    Stage Sent dev' := by
  cases h with
  | started hphase hinit hnum hclass =>
      refine .started ?_ ?_ ?_ fun i => ?_
      · rw [hkeeps.initializePhase]
        exact hphase
      · rw [hkeeps.isInitialized, hinit]
      · rw [hkeeps.numEpConfigs, hnum]
      · rw [hkeeps.classDrivers, hclass i]
  | selected hphase hinit hsent htaken =>
      exact .selected (hkeeps.initializePhase.trans hphase) (hkeeps.isInitialized.trans hinit)
        hsent (htaken.of_fields hkeeps.numEpConfigs hkeeps.epConfigs hkeeps.classDrivers)
  | initialized hphase hinit hsent htaken hfed =>
      refine .initialized (hkeeps.initializePhase.trans hphase)
        (hkeeps.isInitialized.trans hinit) hsent
        (htaken.of_fields hkeeps.numEpConfigs hkeeps.epConfigs hkeeps.classDrivers)
        fun d' hd' hexists => ?_
      obtain ⟨d, hd, hep⟩ := hkeeps.drivers _ d' hd'
      rw [hep]
      exact hfed d hd hexists

/-- Who waits for a control transfer is a class driver, and remains one. -/
theorem WaitersServed.keeps {dev dev' : Device} (h : WaitersServed dev)
    (hkeeps : KeepsEndpoints dev dev') : WaitersServed dev' := by
  intro e he hne
  rw [hkeeps.classDrivers]
  rcases hkeeps.waiters e he with hold | hserved
  · exact h e hold hne
  · exact hserved

/-- The table that `InitializePhase2` makes. -/
theorem takenOver_configured {dev : Device} {b : List (BitVec 8)} {len k j : Nat} (p : Addr)
    (d : HidDriver) (hwalked : Walked b len k j) (hclass : ∀ i, dev.classDrivers i = nullptr) :
    TakenOver (configured dev p d (endpointConfigs b k j)) b len k j p := by
  refine ⟨hwalked, rfl, fun i hi => ?_, fun i => ?_⟩
  · change i.val < (endpointConfigs b k j).length at hi
    change _ = some ((endpointConfigs b k j).getD i.val (dev.epConfigs i))
    rw [List.getD_eq_getElem?_getD, List.getElem?_eq_getElem hi, Option.getD_some]
  · change (if _ then p else dev.classDrivers i) = _
    rw [hclass i]

/-! ## The endpoints of a class driver -/

/-- The loop of `InitializePhase3` changes the class drivers, and no other field of the device.
-/
theorem setEndpoints_fields (n : Nat) : ∀ {dev dev' : Device}, dev.setEndpoints n = .ok dev' →
    ∃ drivers, dev' = { dev with drivers := drivers } := by
  induction n with
  | zero =>
      intro dev dev' h
      cases h
      exact ⟨_, rfl⟩
  | succ n ih =>
      intro dev dev' h
      obtain ⟨dev₁, hn, k, d, hrest, -, -, rfl⟩ := setEndpoints_succ h
      obtain ⟨drivers, rfl⟩ := ih hrest
      exact ⟨_, rfl⟩

/-- `InitializePhase3` as a whole. -/
theorem initializePhase3_fields {dev dev' : Device} {err : Error}
    (h : dev.initializePhase3 = .ok (err, dev')) :
    ∃ drivers, dev.setEndpoints dev.numEpConfigs = .ok { dev with drivers := drivers } ∧
      dev' = { dev with drivers := drivers, initializePhase := 4, isInitialized := true } := by
  unfold initializePhase3 at h
  obtain ⟨dev₁, hset, h⟩ := bind_eq_ok.mp h
  obtain ⟨drivers, rfl⟩ := setEndpoints_fields _ hset
  cases h
  exact ⟨drivers, hset, rfl⟩

/-- `SetEndpoint` takes an interrupt-IN endpoint and ignores the others, so the driver has the
last such endpoint or the one of before. -/
theorem hidSetEndpoint_epInterruptIn (d : HidDriver) (conf : EndpointConfig) :
    (IsInterruptIn conf ∧ (hidSetEndpoint d conf).epInterruptIn = conf.epId) ∨
      (¬ IsInterruptIn conf ∧ (hidSetEndpoint d conf).epInterruptIn = d.epInterruptIn) := by
  unfold hidSetEndpoint
  split
  · rename_i hin
    exact Or.inl ⟨hin, rfl⟩
  · rename_i hother
    refine Or.inr ⟨hother, ?_⟩
    split <;> rfl

/-- **After `n` rounds of `InitializePhase3`** the driver at `p` is fed by the first
`n` endpoints, if they are all its own. -/
theorem setEndpoints_feeds {p : Addr} {dev : Device} {confs : List EndpointConfig} (n : Nat) :
    (∀ i : Fin 16, i.val < n → confs[i.val]? = some (dev.epConfigs i)) →
    (∀ i k : Fin 16, i.val < n → (dev.epConfigs i).epId.number = k.val →
      dev.classDrivers k = p) →
    ∀ {dev' : Device} {d : HidDriver}, dev.setEndpoints n = .ok dev' →
      dev'.drivers p = some d → FedBy d (confs.take n) := by
  induction n with
  | zero =>
      rintro - - dev' d - - ⟨conf, hconf, -⟩
      cases hconf
  | succ n ih =>
      intro hconfs hserved dev' d' h hd'
      obtain ⟨dev₁, hn, k, d, hrest, hnumber, hd, rfl⟩ := setEndpoints_succ h
      have hbefore : ∀ d, dev₁.drivers p = some d → FedBy d (confs.take n) :=
        fun d => ih (fun i hi => hconfs i (Nat.lt_succ_of_lt hi))
          (fun i k hi => hserved i k (Nat.lt_succ_of_lt hi)) hrest
      obtain ⟨drivers, rfl⟩ := setEndpoints_fields n hrest
      have hconf := hconfs ⟨n, hn⟩ (Nat.lt_succ_self n)
      have htake : confs.take (n + 1) = confs.take n ++ [dev.epConfigs ⟨n, hn⟩] := by
        rw [List.take_add_one, hconf]
        rfl
      have hp : dev.classDrivers k = p := hserved ⟨n, hn⟩ k (Nat.lt_succ_self n) hnumber
      change drivers (dev.classDrivers k) = some d at hd
      change Function.update drivers (dev.classDrivers k) (some _) p = some d' at hd'
      rw [hp] at hd
      rw [hp, Function.update_self] at hd'
      cases hd'
      rw [htake]
      rintro ⟨conf, hmem, hin⟩
      rcases hidSetEndpoint_epInterruptIn d (dev.epConfigs ⟨n, hn⟩) with
        ⟨hlast, hep⟩ | ⟨hother, hep⟩
      · exact ⟨_, List.mem_append_right _ List.mem_cons_self, hlast, hep⟩
      · have hearlier : conf ∈ confs.take n := by
          rcases List.mem_append.mp hmem with hmem | hmem
          · exact hmem
          · rw [List.mem_singleton.mp hmem] at hin
            exact absurd hin hother
        obtain ⟨conf', hmem', hin', hep'⟩ := hbefore d hd ⟨conf, hearlier, hin⟩
        exact ⟨conf', List.mem_append_left _ hmem', hin', hep.trans hep'⟩

/-- **`InitializePhase3`** makes the class driver know the endpoints taken over, and the device
is initialized afterwards. -/
theorem initializePhase3_stage {dev dev' : Device} {b : List (BitVec 8)} {len k j : Nat} {p : Addr}
    {err : Error} (hsent : Sent b len) (htaken : TakenOver dev b len k j p)
    (h : dev.initializePhase3 = .ok (err, dev')) : Stage Sent dev' := by
  have hserved : ∀ i k : Fin 16, i.val < dev.numEpConfigs →
      (dev.epConfigs i).epId.number = k.val → dev.classDrivers k = p := by
    intro i k hi hnumber
    rw [htaken.classDrivers, if_pos]
    have hmem := List.mem_of_getElem? (htaken.configs i hi)
    exact List.any_eq_true.mpr ⟨_, hmem, by simpa using hnumber⟩
  obtain ⟨drivers, hset, rfl⟩ := initializePhase3_fields h
  have hfed : ∀ d, drivers p = some d → FedBy d (endpointConfigs b _ j) :=
    fun d hd => by
      have htake := setEndpoints_feeds dev.numEpConfigs htaken.configs hserved hset hd
      rwa [htaken.num, List.take_length] at htake
  exact .initialized rfl rfl hsent (htaken.of_fields rfl rfl rfl) hfed

/-! ## One step and a whole run -/

/-- The test for a descriptor that answers a request: the request was for a descriptor, and the
received bytes have its type. -/
theorem isDescriptor_eq_true {m : Dma} {setupData : SetupData} {buf : Addr} {kType : BitVec 8}
    (h : isDescriptor m (setupData.request == kGetDescriptor) buf kType = .ok true) :
    setupData.request = kGetDescriptor ∧ (m.bytes buf)[1]? = some kType := by
  unfold isDescriptor at h
  split at h
  · rename_i hrequest
    obtain ⟨type, htype, h⟩ := bind_eq_ok.mp h
    have hkType : type = kType := by simpa using Except.ok.inj h
    unfold Dma.byte at htype
    split at htype
    · cases htype
    · split at htype
      · rename_i hbyte
        cases htype
        exact ⟨by simpa using hrequest, hkType ▸ hbyte⟩
      · cases htype
  · cases h

/-- The completions of a device that is not initialized lead from stage to stage: the second
descriptor brings the endpoints, and the answer to SET_CONFIGURATION the drivers. -/
theorem continueInitialize_stage {m : Dma} {obs : DefaultObservers} {dev dev' : Device}
    {pool pool' : Usb.Pool} {setupData : SetupData} {buf : Addr} {len : Int} {err : Error}
    (hstage : Stage Sent dev) (hwaiters : WaitersServed dev) (hinit : dev.isInitialized = false)
    (hlen : len ≤ (m.bytes buf).length)
    (hsent : AnswersConfiguration m dev setupData buf → Sent (m.bytes buf) len.toNat)
    (h : continueInitialize m obs dev pool setupData buf len = .ok (err, dev', pool')) :
    Stage Sent dev' ∧ WaitersServed dev' := by
  cases continueInitialize_cases h with
  | phase1 hphase hcall =>
      -- The configuration descriptor is asked for.
      obtain ⟨numConfigurations, hcall⟩ := initializePhase1_request hcall
      have hkeeps := getDescriptor_keepsEndpoints hcall
      refine ⟨Stage.keeps ?_ hkeeps, WaitersServed.keeps ?_ hkeeps⟩
      · cases hstage with
        | started _ _ hnum hclass => exact .started (Nat.le_refl 2) hinit hnum hclass
        | selected hphase' => omega
        | initialized hphase' => omega
      · exact hwaiters
  | phase2 hphase hanswer hcall =>
      -- Its answer decides about endpoints.
      cases hstage with
      | started _ _ hnum hclass =>
          rcases initializePhase2_cases hlen hcall with
            rfl | ⟨k, j, p, d, value, hp, -, hwalked, hset⟩
          · exact ⟨.started (Nat.le_of_eq hphase) hinit hnum hclass, hwaiters⟩
          · have hanswers : AnswersConfiguration m dev setupData buf :=
              ⟨hinit, hphase, isDescriptor_eq_true hanswer⟩
            have hkeeps := setConfiguration_keepsEndpoints hset
            have htaken := takenOver_configured p d hwalked hclass
            have hselected : Stage Sent
                (configured dev p d (endpointConfigs (m.bytes buf) k j)) := by
              refine .selected ?_ ?_ (hsent hanswers) htaken
              · rfl
              · exact hinit
            refine ⟨hselected.keeps hkeeps, WaitersServed.keeps ?_ hkeeps⟩
            intro e he hne
            obtain ⟨i, hi⟩ := hwaiters e he hne
            exact absurd (hi.symm.trans (hclass i)) hne
      | selected hphase' => omega
      | initialized hphase' => omega
  | phase3 hphase _ hcall =>
      -- The class driver learns its endpoints.
      cases hstage with
      | started hphase' => omega
      | selected _ _ hsent htaken =>
          refine ⟨initializePhase3_stage hsent htaken hcall, ?_⟩
          obtain ⟨drivers, -, rfl⟩ := initializePhase3_fields hcall
          exact hwaiters
      | initialized hphase' => omega
  | refused => exact ⟨hstage, hwaiters⟩

/-- **A step** leads from stage to stage, and the waiters stay class drivers of the device. -/
theorem stage_step {dev dev' : Device} (hstage : Stage Sent dev) (hwaiters : WaitersServed dev)
    (h : DeviceStep Sent dev dev') : Stage Sent dev' ∧ WaitersServed dev' := by
  have hkept : KeepsEndpoints dev dev' → Stage Sent dev' ∧ WaitersServed dev' :=
    fun hkeeps => ⟨hstage.keeps hkeeps, hwaiters.keeps hkeeps⟩
  cases h with
  | address hcall => exact hkept (address_keepsEndpoints hcall)
  | start hphase hcall =>
      unfold startInitialize at hcall
      have hkeeps := getDescriptor_keepsEndpoints hcall
      refine ⟨Stage.keeps ?_ hkeeps, WaitersServed.keeps ?_ hkeeps⟩
      · cases hstage with
        | started _ _ hnum hclass => exact .started (Nat.le_succ 1) rfl hnum hclass
        | selected hphase' => omega
        | initialized hphase' => omega
      · exact hwaiters
  | decode => exact hkept (decodeTransferEvent_keepsEndpoints _ _ _)
  | @complete m obs _ _ pool pool' completion err hreceived hcall =>
      cases completion with
      | failed err =>
          cases hcall
          exact ⟨hstage, hwaiters⟩
      | interrupt epId buf len =>
          obtain ⟨⟨err₁, dev₁⟩, hinterrupt, h⟩ := bind_eq_ok.mp hcall
          cases h
          exact hkept (onInterruptCompleted_keepsEndpoints hinterrupt)
      | control setupData buf len =>
          obtain ⟨hlen, hsent⟩ := hreceived setupData buf len rfl
          change onControlCompleted m obs dev pool setupData buf len = _ at hcall
          cases onControlCompleted_cases hcall with
          | driver _ _ hdriver => exact hkept (driverOnControlCompleted_keepsEndpoints hdriver)
          | noWaiter => exact ⟨hstage, hwaiters⟩
          | initializing hinit hcall =>
              exact continueInitialize_stage hstage hwaiters hinit hlen hsent hcall
  | unknownSpeed => exact hkept (.of_fields rfl rfl rfl rfl rfl rfl rfl)
  | configure hcall =>
      have hprepare : KeepsEndpoints dev dev.prepareEndpoints :=
        .of_fields rfl rfl rfl rfl rfl rfl rfl
      exact hkept (hprepare.trans (configureEndpointLoop_keepsEndpoints _ hcall))
  | configured hcall => exact hkept (onEndpointsConfiguredFrom_keepsEndpoints 16 hcall)
  | hardware => exact hkept (.of_fields rfl rfl rfl rfl rfl rfl rfl)

/-- **A run** from the construction of the device stays within the stages, by induction over its
steps. -/
theorem Reached.stage {self : Addr} {slotId : BitVec 8} {dev : Device}
    (h : Reached Sent self slotId dev) : Stage Sent dev ∧ WaitersServed dev := by
  induction h with
  | refl =>
      refine ⟨.started (Nat.zero_le 2) rfl rfl fun _ => rfl, fun e he => ?_⟩
      rw [show (Device.new self slotId).eventWaiters = .empty nullptr from rfl,
        ArrayMap.entries_empty] at he
      cases he
  | tail _ hstep ih => exact stage_step ih.1 ih.2 hstep

/-! ## Computed runs -/

/-- The request for a descriptor. -/
def getDescriptorData (descType : BitVec 8) : SetupData where
  requestType := requestTypeBits 1 0 0
  request := kGetDescriptor
  value := descType.setWidth 16 <<< 8
  index := 0
  length := 256

/-- The device answers a request with `bytes`. -/
def answer (dev : Device) (setupData : SetupData) (bytes : List (BitVec 8)) :
    Except Fault Device :=
  (onControlCompleted (bufferOf bytes) ⟨true, true⟩ dev (Usb.Pool.init Usb.samplePool) setupData
    dev.buffer (bytes.length : Nat)).map fun result => result.2.1

/-- A device is addressed and its initialization started. -/
def addressed : Except Fault Device :=
  (useControlRing (((Device.new 0x200040 1).prepareAddress 1 3).allocTransferRing 0 32
    (Usb.Pool.init Usb.samplePool))).bind fun result =>
      (result.1.startInitialize).map Prod.snd

/-- It answers one request after the other. -/
def answers (dev : Device) : List (SetupData × List (BitVec 8)) → Except Fault Device
  | [] => .ok dev
  | reply :: rest => (dev.answer reply.1 reply.2).bind fun dev => dev.answers rest

/-- **Answers make a run**, if those that are configuration descriptors are sent; this is how
the examples get their runs. -/
theorem answers_reached {self : Addr} {slotId : BitVec 8}
    {replies : List (SetupData × List (BitVec 8))} : ∀ {dev dev' : Device},
      Reached Sent self slotId dev →
      (∀ reply ∈ replies, reply.2[1]? = some kConfigurationDescriptor →
        Sent reply.2 reply.2.length) →
      dev.answers replies = .ok dev' → Reached Sent self slotId dev' := by
  induction replies with
  | nil =>
      intro dev dev' hreached _ h
      cases h
      exact hreached
  | cons reply rest ih =>
      intro dev dev' hreached hsent h
      obtain ⟨dev₁, hanswer, h⟩ := bind_eq_ok.mp h
      refine ih (hreached.tail ?_) (fun r hr => hsent r (List.mem_cons_of_mem _ hr)) h
      unfold answer at hanswer
      obtain ⟨⟨err, dev₂, pool'⟩, hcall, hdev₂⟩ := map_eq_ok hanswer
      cases hdev₂
      have hcompletes : complete (bufferOf reply.2) ⟨true, true⟩ dev
          (Usb.Pool.init Usb.samplePool)
          (.control reply.1 dev.buffer (reply.2.length : Nat)) = .ok (err, dev₂, pool') := hcall
      refine .complete ?_ hcompletes
      rintro setupData buf len heq
      cases heq
      exact ⟨Int.le_refl _, fun hanswers => hsent reply List.mem_cons_self hanswers.2.2.2⟩

variable (Sent) in
/-- A device that has been addressed and asked for its device descriptor is reached, so the
examples go on from there. -/
theorem addressed_reached {dev : Device} (h : addressed = .ok dev) :
    Reached Sent 0x200040 1 dev := by
  unfold addressed at h
  obtain ⟨⟨dev₁, pool'⟩, haddress, h⟩ := bind_eq_ok.mp h
  obtain ⟨⟨err, dev₂⟩, hstart, hdev₂⟩ := map_eq_ok h
  cases hdev₂
  refine (ReflTransGen.single (.address haddress)).tail (.start ?_ hstart)
  rw [(address_keepsEndpoints haddress).initializePhase]
  rfl

end Mikanos.Xhci.Device
