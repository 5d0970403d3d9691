import Mikanos.Usb.Device

/-!
# What the class driver layer leaves alone

Everything `usb::Device` and the class drivers do happens behind the transfer
functions.  Two relations between the device before and after a call say how
far the effects reach:

* `KeepsSlot`: the slot id, the contexts and the address of the device are the
  same.  Every function of the layer keeps them.
* `KeepsControl`: in addition the ring of the default control pipe and
  `setup_stage_map_` are the same.  Every function that issues no transfer
  keeps them, and the completion functions issue at most one request
  (`onControlCompleted_issues`).
-/

namespace Mikanos.Xhci.Device

open Mikanos.Usb

/-- The part of the device that belongs to its slot is unchanged. -/
structure KeepsSlot (dev dev' : Device) : Prop where
  self : dev'.self = dev.self
  slotId : dev'.slotId = dev.slotId
  slotContext : dev'.slotContext = dev.slotContext
  inputContext : dev'.inputContext = dev.inputContext

/-- The part of the device that control transfers use is unchanged as well. -/
structure KeepsControl (dev dev' : Device) : Prop extends KeepsSlot dev dev' where
  ring : dev'.transferRings 0 = dev.transferRings 0
  stages : dev'.setupStageMap = dev.setupStageMap

theorem KeepsSlot.refl (dev : Device) : KeepsSlot dev dev := ⟨rfl, rfl, rfl, rfl⟩

theorem KeepsSlot.trans {a b c : Device} (hab : KeepsSlot a b) (hbc : KeepsSlot b c) :
    KeepsSlot a c :=
  ⟨hbc.self.trans hab.self, hbc.slotId.trans hab.slotId, hbc.slotContext.trans hab.slotContext,
    hbc.inputContext.trans hab.inputContext⟩

theorem KeepsControl.refl (dev : Device) : KeepsControl dev dev := ⟨.refl dev, rfl, rfl⟩

theorem KeepsControl.trans {a b c : Device} (hab : KeepsControl a b) (hbc : KeepsControl b c) :
    KeepsControl a c :=
  ⟨hab.toKeepsSlot.trans hbc.toKeepsSlot, hbc.ring.trans hab.ring, hbc.stages.trans hab.stages⟩

/-! ## Transfers -/

/-- An issuer is entered into `event_waiters_` and nowhere else. -/
theorem addWaiter_fields (dev : Device) (setupData : SetupData) (issuer : Addr) :
    ∃ eventWaiters,
      dev.addWaiter setupData issuer = { dev with eventWaiters := eventWaiters } := by
  unfold addWaiter
  split
  · exact ⟨_, rfl⟩
  · exact ⟨_, rfl⟩

/-- A request without an issuer. -/
@[simp] theorem addWaiter_nullptr (dev : Device) (setupData : SetupData) :
    dev.addWaiter setupData nullptr = dev :=
  if_neg (not_not.mpr rfl)

/-- A control transfer has been issued, with its TRBs on the ring and an entry for its Setup
Stage, or the call failed before it and has at most added the waiter. -/
theorem controlTransfer_cases {dev dev' : Device} {type : BitVec 2} {dirIn : Bool}
    {status : Trb} {epId : EndpointID} {setupData : SetupData} {buf : Addr} {len : Int}
    {issuer : Addr} {err : Error}
    (h : dev.controlTransfer type dirIn status epId setupData buf len issuer = .ok (err, dev')) :
    dev' = dev.addWaiter setupData issuer ∨
      ∃ i dci pushed, dev' = (dev.addWaiter setupData issuer).noteTransfer i dci pushed := by
  unfold controlTransfer at h
  split at h
  · cases h
    exact Or.inl rfl
  · obtain ⟨i, -, h⟩ := bind_eq_ok.mp h
    split at h
    · cases h
      exact Or.inl rfl
    · obtain ⟨pushed, -, h⟩ := bind_eq_ok.mp h
      cases h
      exact Or.inr ⟨i, _, pushed, rfl⟩

/-- `InterruptIn` puts a TRB on the ring of its endpoint and rings the doorbell, or the endpoint
has no ring and nothing happens. -/
theorem interruptIn_cases {dev dev' : Device} {epId : EndpointID} {buf : Addr} {len : Int}
    {err : Error} (h : dev.interruptIn epId buf len = .ok (err, dev')) :
    dev' = dev ∨ ∃ i tr, dciIndex epId.address = .ok i ∧
      dev' = (dev.setRing i (some tr)).ringDoorbell epId.address := by
  unfold interruptIn at h
  obtain ⟨i, hi, h⟩ := bind_eq_ok.mp h
  split at h
  · cases h
    exact Or.inl rfl
  · obtain ⟨⟨p, tr⟩, -, h⟩ := bind_eq_ok.mp h
    cases h
    exact Or.inr ⟨i, tr, hi, rfl⟩

/-- A control transfer leaves the slot of the device and its contexts alone, also when it is
refused. -/
theorem controlTransfer_keepsSlot {dev dev' : Device} {type : BitVec 2} {dirIn : Bool}
    {status : Trb} {epId : EndpointID} {setupData : SetupData} {buf : Addr} {len : Int}
    {issuer : Addr} {err : Error}
    (h : dev.controlTransfer type dirIn status epId setupData buf len issuer = .ok (err, dev')) :
    KeepsSlot dev dev' := by
  have hwaiter : KeepsSlot dev (dev.addWaiter setupData issuer) := by
    obtain ⟨eventWaiters, hadd⟩ := addWaiter_fields dev setupData issuer
    rw [hadd]
    exact ⟨rfl, rfl, rfl, rfl⟩
  rcases controlTransfer_cases h with rfl | ⟨i, dci, pushed, rfl⟩
  · exact hwaiter
  · exact hwaiter.trans ⟨rfl, rfl, rfl, rfl⟩

/-- `ControlIn` or `ControlOut` on the default control pipe. -/
def control (dev : Device) (dirIn : Bool) (setupData : SetupData) (buf : Addr) (len : Int)
    (issuer : Addr) : Except Fault (Error × Device) :=
  if dirIn then dev.controlIn kDefaultControlPipeID setupData buf len issuer
  else dev.controlOut kDefaultControlPipeID setupData buf len issuer

/-- `ControlIn` and `ControlOut` keep the slot. -/
theorem controlIn_keepsSlot {dev dev' : Device} {epId : EndpointID} {setupData : SetupData}
    {buf : Addr} {len : Int} {issuer : Addr} {err : Error}
    (h : dev.controlIn epId setupData buf len issuer = .ok (err, dev')) : KeepsSlot dev dev' :=
  controlTransfer_keepsSlot h

/-- `ControlOut` stays within the slot, whether it can issue its transfer or not. -/
theorem controlOut_keepsSlot {dev dev' : Device} {epId : EndpointID} {setupData : SetupData}
    {buf : Addr} {len : Int} {issuer : Addr} {err : Error}
    (h : dev.controlOut epId setupData buf len issuer = .ok (err, dev')) : KeepsSlot dev dev' :=
  controlTransfer_keepsSlot h

/-- `InterruptIn` keeps the slot, and it keeps the control pipe too unless it is used on that
pipe. -/
theorem interruptIn_keeps {dev dev' : Device} {epId : EndpointID} {buf : Addr} {len : Int}
    {err : Error} (h : dev.interruptIn epId buf len = .ok (err, dev')) :
    KeepsSlot dev dev' ∧ (epId.address ≠ 1 → KeepsControl dev dev') := by
  rcases interruptIn_cases h with rfl | ⟨i, tr, hi, rfl⟩
  · exact ⟨.refl _, fun _ => .refl _⟩
  · refine ⟨⟨rfl, rfl, rfl, rfl⟩, fun haddress => ⟨⟨rfl, rfl, rfl, rfl⟩, ?_, rfl⟩⟩
    have hne : (0 : Fin 31) ≠ i := by
      unfold dciIndex at hi
      split at hi
      · cases hi
        intro h0
        have := congrArg Fin.val h0
        simp only [Fin.val_zero] at this
        omega
      · cases hi
    exact Function.update_of_ne hne _ _

/-! ## Class drivers -/

/-- A driver that is dereferenced exists. -/
theorem driverAt_eq_ok {dev : Device} {p : Addr} {d : HidDriver} (h : dev.driverAt p = .ok d) :
    dev.drivers p = some d := by
  unfold driverAt at h
  split at h
  · cases h
  · rename_i hd
    cases h
    exact hd

/-- A driver that exists can be dereferenced. -/
theorem driverAt_of_drivers {dev : Device} {p : Addr} {d : HidDriver}
    (h : dev.drivers p = some d) : dev.driverAt p = .ok d := by
  unfold driverAt
  rw [h]

/-- A change of a class driver is outside the slot and the control pipe. -/
theorem setDriver_keeps (dev : Device) (p : Addr) (d : HidDriver) :
    KeepsControl dev (dev.setDriver p d) := ⟨⟨rfl, rfl, rfl, rfl⟩, rfl, rfl⟩

/-- A class driver begins with `SET_PROTOCOL`, which is a control transfer. -/
theorem driverOnEndpointsConfigured_keepsSlot {dev dev' : Device} {p : Addr} {err : Error}
    (h : dev.driverOnEndpointsConfigured p = .ok (err, dev')) : KeepsSlot dev dev' := by
  unfold driverOnEndpointsConfigured at h
  obtain ⟨d, -, h⟩ := bind_eq_ok.mp h
  exact (setDriver_keeps dev p _).toKeepsSlot.trans (controlOut_keepsSlot h)

/-- No class driver uses the control ring for its interrupt transfers. -/
def ControlPipeReserved (dev : Device) : Prop :=
  ∀ p d, dev.drivers p = some d → d.epInterruptIn.address ≠ 1

/-- The class driver asks for its first report once, after the request that
`OnEndpointsConfigured` has made; in every other phase it does nothing. -/
theorem driverOnControlCompleted_cases {dev dev' : Device} {p : Addr} {err : Error}
    (h : dev.driverOnControlCompleted p = .ok (err, dev')) :
    ∃ d, dev.drivers p = some d ∧
      ((d.initializePhase = 1 ∧
          (dev.setDriver p { d with initializePhase := 2 }).interruptIn d.epInterruptIn
            (hidBuffer p) d.inPacketSize = .ok (err, dev')) ∨
        (d.initializePhase ≠ 1 ∧ err = .kNotImplemented ∧ dev' = dev)) := by
  unfold driverOnControlCompleted at h
  obtain ⟨d, hd, h⟩ := bind_eq_ok.mp h
  refine ⟨d, driverAt_eq_ok hd, ?_⟩
  split at h
  · rename_i hphase
    exact Or.inl ⟨hphase, h⟩
  · rename_i hphase
    cases h
    exact Or.inr ⟨hphase, rfl, rfl⟩

/-- After `SET_PROTOCOL` a class driver asks for its first report.  If it has an endpoint of its
own, this leaves the control pipe alone. -/
theorem driverOnControlCompleted_keeps {dev dev' : Device} {p : Addr} {err : Error}
    (h : dev.driverOnControlCompleted p = .ok (err, dev')) :
    KeepsSlot dev dev' ∧ (dev.ControlPipeReserved → KeepsControl dev dev') := by
  obtain ⟨d, hd, ⟨-, h⟩ | ⟨-, -, rfl⟩⟩ := driverOnControlCompleted_cases h
  · obtain ⟨hslot, hcontrol⟩ := interruptIn_keeps h
    refine ⟨(setDriver_keeps dev p _).toKeepsSlot.trans hslot, fun hreserved => ?_⟩
    exact (setDriver_keeps dev p _).trans (hcontrol (hreserved p d hd))
  · exact ⟨.refl _, fun _ => .refl _⟩

/-- A report is passed on and the next one is asked for; both concern the driver and the ring of
its endpoint, not the slot. -/
theorem driverOnInterruptCompleted_keepsSlot {m : Dma} {dev dev' : Device} {p buf : Addr}
    {epId : EndpointID} {len : Int} {err : Error}
    (h : driverOnInterruptCompleted m dev p epId buf len = .ok (err, dev')) :
    KeepsSlot dev dev' := by
  unfold driverOnInterruptCompleted at h
  obtain ⟨d, -, h⟩ := bind_eq_ok.mp h
  split at h
  · obtain ⟨d₁, -, h⟩ := bind_eq_ok.mp h
    obtain ⟨d₂, -, h⟩ := bind_eq_ok.mp h
    exact (setDriver_keeps dev p _).toKeepsSlot.trans (interruptIn_keeps h).1
  · cases h
    exact .refl dev

/-! ## Parsing the configuration descriptor -/

/-- A device with other class drivers and endpoints: nothing else comes from the configuration
descriptor. -/
def FilledIn (dev dev' : Device) : Prop :=
  ∃ drivers classDrivers epConfigs numEpConfigs, dev' = { dev with
    drivers := drivers
    classDrivers := classDrivers
    epConfigs := epConfigs
    numEpConfigs := numEpConfigs }

theorem FilledIn.refl (dev : Device) : FilledIn dev dev := ⟨_, _, _, _, rfl⟩

theorem FilledIn.trans {a b c : Device} (hab : FilledIn a b) (hbc : FilledIn b c) :
    FilledIn a c := by
  obtain ⟨_, _, _, _, rfl⟩ := hab
  obtain ⟨_, _, _, _, rfl⟩ := hbc
  exact ⟨_, _, _, _, rfl⟩

/-- What is filled in while descriptors are read does not concern the control pipe. -/
theorem FilledIn.keeps {dev dev' : Device} (h : FilledIn dev dev') : KeepsControl dev dev' := by
  obtain ⟨_, _, _, _, rfl⟩ := h
  exact ⟨⟨rfl, rfl, rfl, rfl⟩, rfl, rfl⟩

/-- Reading descriptors does not finish the initialization; only phase 3 does. -/
theorem FilledIn.isInitialized {dev dev' : Device} (h : FilledIn dev dev') :
    dev'.isInitialized = dev.isInitialized := by
  obtain ⟨_, _, _, _, rfl⟩ := h
  rfl

/-- A class driver that was constructed is one more object, and nothing else about the device
has changed. -/
theorem placeClassDriver_filledIn {dev dev' : Device} {kind : HidKind}
    {interfaceNumber : BitVec 8} {observers : Nat} {block : Addr × Pool} {p : Addr} {pool' : Pool}
    (h : placeClassDriver dev kind interfaceNumber observers block = .ok (p, dev', pool')) :
    FilledIn dev dev' := by
  unfold placeClassDriver at h
  split at h
  · cases h
  · cases h
    exact ⟨_, _, _, _, rfl⟩

/-- `NewClassDriver` constructs a driver, or returns null without an effect. -/
theorem newClassDriver_filledIn {obs : DefaultObservers} {dev dev' : Device}
    {ifDesc : InterfaceDescriptor} {pool pool' : Pool} {p : Addr}
    (h : newClassDriver obs dev ifDesc pool = .ok (p, dev', pool')) : FilledIn dev dev' := by
  unfold newClassDriver at h
  split at h
  · cases h
    exact .refl dev
  · exact placeClassDriver_filledIn h

/-- An endpoint that is taken fills one entry of the table and names its driver. -/
theorem addEndpoint_filledIn {dev dev' : Device} {conf : EndpointConfig} {p : Addr}
    (h : dev.addEndpoint conf p = .ok dev') : FilledIn dev dev' := by
  unfold addEndpoint at h
  split at h
  · cases h
    exact ⟨_, _, _, _, rfl⟩
  · cases h

/-- The loop over the endpoints only fills in the table and the class drivers of the device, by
induction on the fuel. -/
theorem endpointLoop_filledIn {m : Dma} {numEndpoints : BitVec 8} {p : Addr} (fuel : Nat) :
    ∀ {r r' : Reader} {dev dev' : Device},
      endpointLoop m numEndpoints p fuel r dev = .ok (r', dev') → FilledIn dev dev' := by
  induction fuel with
  | zero =>
      intro r r' dev dev' h
      cases h
  | succ fuel ih =>
      intro r r' dev dev' h
      unfold endpointLoop at h
      split at h
      · obtain ⟨⟨desc, r₁⟩, -, h⟩ := bind_eq_ok.mp h
        dsimp only at h
        split at h
        · cases h
        · obtain ⟨type, -, h⟩ := bind_eq_ok.mp h
          split at h
          · obtain ⟨conf, -, h⟩ := bind_eq_ok.mp h
            obtain ⟨dev₁, hadd, h⟩ := bind_eq_ok.mp h
            exact (addEndpoint_filledIn hadd).trans (ih h)
          · split at h
            · obtain ⟨-, -, h⟩ := bind_eq_ok.mp h
              exact ih h
            · exact ih h
      · cases h
        exact .refl dev

/-- The loop over the interfaces only adds a class driver and fills in its endpoints, by
induction on the fuel. -/
theorem interfaceLoop_filledIn {m : Dma} {obs : DefaultObservers} {loopFuel : Nat} (fuel : Nat) :
    ∀ {r : Reader} {dev dev' : Device} {pool pool' : Pool} {p : Addr},
      interfaceLoop m obs loopFuel fuel r dev pool = .ok (p, dev', pool') → FilledIn dev dev' := by
  induction fuel with
  | zero =>
      intro r dev dev' pool pool' p h
      cases h
  | succ fuel ih =>
      intro r dev dev' pool pool' p h
      unfold interfaceLoop at h
      obtain ⟨⟨ifOffset, r₁⟩, -, h⟩ := bind_eq_ok.mp h
      dsimp only at h
      split at h
      · cases h
        exact .refl dev
      · obtain ⟨ifDesc, -, h⟩ := bind_eq_ok.mp h
        obtain ⟨⟨classDriver, dev₁, pool₁⟩, hnew, h⟩ := bind_eq_ok.mp h
        dsimp only at h
        split at h
        · exact (newClassDriver_filledIn hnew).trans (ih h)
        · obtain ⟨⟨r₂, dev₂⟩, hloop, h⟩ := bind_eq_ok.mp h
          cases h
          have hclear : FilledIn dev₁ dev₁.clearEndpoints := ⟨_, _, _, _, rfl⟩
          exact (newClassDriver_filledIn hnew).trans
            (hclear.trans (endpointLoop_filledIn loopFuel hloop))

/-! ## Initialization and completions -/

/-- What a completion does to the control pipe: nothing, or one request. -/
def Issues (dev : Device) (err : Error) (dev' : Device) : Prop :=
  KeepsControl dev dev' ∨
    ∃ dev₁ dirIn setupData buf len issuer, KeepsControl dev dev₁ ∧ 0 ≤ len ∧ len < 2 ^ 17 ∧
      dev₁.control dirIn setupData buf len issuer = .ok (err, dev')

/-- A call that prepares the device and then issues a request issues that request. -/
theorem Issues.of_keeps {dev dev₁ dev' : Device} {err : Error} (hkeeps : KeepsControl dev dev₁)
    (h : Issues dev₁ err dev') : Issues dev err dev' := by
  rcases h with h | ⟨dev₂, dirIn, setupData, buf, len, issuer, h, h0, hlen, hcall⟩
  · exact Or.inl (hkeeps.trans h)
  · exact Or.inr ⟨dev₂, dirIn, setupData, buf, len, issuer, hkeeps.trans h, h0, hlen, hcall⟩

/-- Every way in which a completion goes on, with a request or without one, keeps the slot of
the device. -/
theorem Issues.keepsSlot {dev dev' : Device} {err : Error} (h : Issues dev err dev') :
    KeepsSlot dev dev' := by
  rcases h with h | ⟨dev₁, dirIn, setupData, buf, len, issuer, h, -, -, hcall⟩
  · exact h.toKeepsSlot
  · refine h.toKeepsSlot.trans ?_
    unfold control at hcall
    split at hcall
    · exact controlIn_keepsSlot hcall
    · exact controlOut_keepsSlot hcall

/-- `ControlIn` and `ControlOut` on the default control pipe are requests. -/
theorem controlIn_issues {dev dev' : Device} {setupData : SetupData} {buf : Addr} {len : Int}
    {issuer : Addr} {err : Error} (h0 : 0 ≤ len) (hlen : len < 2 ^ 17)
    (h : dev.controlIn kDefaultControlPipeID setupData buf len issuer = .ok (err, dev')) :
    Issues dev err dev' := by
  refine Or.inr ⟨dev, true, setupData, buf, len, issuer, .refl dev, h0, hlen, ?_⟩
  rw [control, if_pos rfl, h]

/-- `ControlOut` with a length that fits into 17 bits is such a request. -/
theorem controlOut_issues {dev dev' : Device} {setupData : SetupData} {buf : Addr} {len : Int}
    {issuer : Addr} {err : Error} (h0 : 0 ≤ len) (hlen : len < 2 ^ 17)
    (h : dev.controlOut kDefaultControlPipeID setupData buf len issuer = .ok (err, dev')) :
    Issues dev err dev' := by
  refine Or.inr ⟨dev, false, setupData, buf, len, issuer, .refl dev, h0, hlen, ?_⟩
  rw [control, if_neg (by decide), h]

/-- `GetDescriptor` on the default control pipe is a request. -/
theorem getDescriptor_issues {dev dev' : Device} {descType descIndex : BitVec 8} {buf : Addr}
    {len : Int} {err : Error} (h0 : 0 ≤ len) (hlen : len < 2 ^ 17)
    (h : dev.getDescriptor kDefaultControlPipeID descType descIndex buf len = .ok (err, dev')) :
    Issues dev err dev' := by
  unfold getDescriptor at h
  exact controlIn_issues h0 hlen h

/-- `SetConfiguration` on the default control pipe is a request. -/
theorem setConfiguration_issues {dev dev' : Device} {configValue : BitVec 8} {err : Error}
    (h : dev.setConfiguration kDefaultControlPipeID configValue = .ok (err, dev')) :
    Issues dev err dev' := by
  unfold setConfiguration at h
  exact controlOut_issues (by omega) (by omega) h

/-- The initialization starts with a request for the device descriptor. -/
theorem startInitialize_issues {dev dev' : Device} {err : Error}
    (h : dev.startInitialize = .ok (err, dev')) : Issues dev err dev' := by
  unfold startInitialize at h
  have hphase : KeepsControl dev { dev with isInitialized := false, initializePhase := 1 } :=
    ⟨⟨rfl, rfl, rfl, rfl⟩, rfl, rfl⟩
  exact (getDescriptor_issues (by omega) (by omega) h).of_keeps hphase

/-- `InitializePhase1` ends with the request for the configuration descriptor. -/
theorem initializePhase1_request {m : Dma} {dev dev' : Device} {buf : Addr} {err : Error}
    (h : initializePhase1 m dev buf = .ok (err, dev')) :
    ∃ numConfigurations, getDescriptor
      { dev with numConfigurations := numConfigurations, configIndex := 0, initializePhase := 2 }
      kDefaultControlPipeID kConfigurationDescriptor 0 dev.buffer 256 = .ok (err, dev') := by
  unfold initializePhase1 at h
  obtain ⟨numConfigurations, -, h⟩ := bind_eq_ok.mp h
  exact ⟨numConfigurations, h⟩

/-- Phase 1 goes on with a request for the configuration descriptor. -/
theorem initializePhase1_issues {m : Dma} {dev dev' : Device} {buf : Addr} {err : Error}
    (h : initializePhase1 m dev buf = .ok (err, dev')) : Issues dev err dev' := by
  obtain ⟨numConfigurations, h⟩ := initializePhase1_request h
  have hphase : KeepsControl dev { dev with
      numConfigurations := numConfigurations, configIndex := 0, initializePhase := 2 } :=
    ⟨⟨rfl, rfl, rfl, rfl⟩, rfl, rfl⟩
  exact (getDescriptor_issues (by omega) (by omega) h).of_keeps hphase

/-- At the end of phase 2 the configuration is selected, with one `SET_CONFIGURATION` on the
control pipe. -/
theorem selectConfiguration_issues {m : Dma} {buf p : Addr} {dev dev' : Device}
    {pool pool' : Pool} {err : Error}
    (h : selectConfiguration m buf p dev pool = .ok (err, dev', pool')) : Issues dev err dev' := by
  unfold selectConfiguration at h
  split at h
  · cases h
    exact Or.inl (.refl dev)
  · obtain ⟨configurationValue, -, h⟩ := bind_eq_ok.mp h
    obtain ⟨⟨err₁, dev₁⟩, hset, h⟩ := bind_eq_ok.mp h
    cases h
    have hphase : KeepsControl dev { dev with initializePhase := 3 } :=
      ⟨⟨rfl, rfl, rfl, rfl⟩, rfl, rfl⟩
    exact (setConfiguration_issues hset).of_keeps hphase

/-- **Phase 2** reads the descriptors and issues one request, or it finds no driver and issues
none. -/
theorem initializePhase2_issues {m : Dma} {obs : DefaultObservers} {dev dev' : Device}
    {pool pool' : Pool} {buf : Addr} {len : Int} {err : Error}
    (h : initializePhase2 m obs dev pool buf len = .ok (err, dev', pool')) :
    Issues dev err dev' := by
  unfold initializePhase2 at h
  obtain ⟨type, -, h⟩ := bind_eq_ok.mp h
  split at h
  · cases h
    exact Or.inl (.refl dev)
  · generalize loopFuelOf len = fuel at h
    obtain ⟨⟨p, dev₁, pool₁⟩, hloop, h⟩ := bind_eq_ok.mp h
    exact (selectConfiguration_issues h).of_keeps (interfaceLoop_filledIn fuel hloop).keeps

/-- One round of the loop over the configured endpoints: the class driver at the number of the
endpoint is told about it. -/
theorem setEndpoints_succ {dev dev' : Device} {n : Nat} (h : dev.setEndpoints (n + 1) = .ok dev') :
    ∃ (dev₁ : Device) (hn : n < 16) (k : Fin 16) (d : HidDriver), dev.setEndpoints n = .ok dev₁ ∧
      (dev₁.epConfigs ⟨n, hn⟩).epId.number = k.val ∧ dev₁.drivers (dev₁.classDrivers k) = some d ∧
      dev' = dev₁.setDriver (dev₁.classDrivers k) (hidSetEndpoint d (dev₁.epConfigs ⟨n, hn⟩)) := by
  obtain ⟨dev₁, hrest, h⟩ := bind_eq_ok.mp h
  split at h
  · rename_i hn
    dsimp only at h
    split at h
    · rename_i hnumber
      obtain ⟨⟨err, dev₂⟩, hset, h⟩ := bind_eq_ok.mp h
      cases h
      unfold driverSetEndpoint at hset
      obtain ⟨d, hd, hset⟩ := bind_eq_ok.mp hset
      cases hset
      exact ⟨dev₁, hn, ⟨(dev₁.epConfigs ⟨n, hn⟩).epId.number.toNat, by omega⟩, d, hrest,
        (Int.toNat_of_nonneg hnumber.1).symm, driverAt_eq_ok hd, rfl⟩
    · cases h
  · cases h

/-- The loop that hands the endpoints to their class drivers keeps the slot and the control
pipe, by induction over the entries. -/
theorem setEndpoints_keeps (n : Nat) :
    ∀ {dev dev' : Device}, dev.setEndpoints n = .ok dev' → KeepsControl dev dev' := by
  induction n with
  | zero =>
      intro dev dev' h
      cases h
      exact .refl dev
  | succ n ih =>
      intro dev dev' h
      obtain ⟨dev₁, hn, k, d, hrest, -, -, rfl⟩ := setEndpoints_succ h
      exact (ih hrest).trans (setDriver_keeps dev₁ _ _)

/-- Phase 3 is this loop; it issues no request of its own. -/
theorem initializePhase3_keeps {dev dev' : Device} {err : Error}
    (h : dev.initializePhase3 = .ok (err, dev')) : KeepsControl dev dev' := by
  unfold initializePhase3 at h
  obtain ⟨dev₁, hset, h⟩ := bind_eq_ok.mp h
  cases h
  exact (setEndpoints_keeps _ hset).trans ⟨⟨rfl, rfl, rfl, rfl⟩, rfl, rfl⟩

/-! ## How a completion is handled -/

section Completion

variable {m : Dma} {obs : DefaultObservers} {dev dev' : Device} {pool pool' : Pool}
  {setupData : SetupData} {buf : Addr} {len : Int} {err : Error}

/-- What a completion does to a device that is not initialized. -/
inductive InitializationContinues (m : Dma) (obs : DefaultObservers) (dev : Device) (pool : Pool)
    (setupData : SetupData) (buf : Addr) (len : Int) : Error → Device → Pool → Prop
  | phase1 {err : Error} {dev' : Device} (hphase : dev.initializePhase = 1)
      (hcall : initializePhase1 m dev buf = .ok (err, dev')) :
      InitializationContinues m obs dev pool setupData buf len err dev' pool
  | phase2 {err : Error} {dev' : Device} {pool' : Pool} (hphase : dev.initializePhase = 2)
      (hanswer : isDescriptor m (setupData.request == kGetDescriptor) buf
        kConfigurationDescriptor = .ok true)
      (hcall : initializePhase2 m obs dev pool buf len = .ok (err, dev', pool')) :
      InitializationContinues m obs dev pool setupData buf len err dev' pool'
  | phase3 {err : Error} {dev' : Device} (hphase : dev.initializePhase = 3)
      (hrequest : setupData.request = kSetConfiguration)
      (hcall : dev.initializePhase3 = .ok (err, dev')) :
      InitializationContinues m obs dev pool setupData buf len err dev' pool
  | refused {err : Error} (herr : err ≠ .kSuccess) :
      InitializationContinues m obs dev pool setupData buf len err dev pool

/-- **The initialization goes on** in one of its phases, which the phase of the device and the
answered request decide, or reports that the answer does not fit. -/
theorem continueInitialize_cases
    (h : continueInitialize m obs dev pool setupData buf len = .ok (err, dev', pool')) :
    InitializationContinues m obs dev pool setupData buf len err dev' pool' := by
  unfold continueInitialize at h
  split at h
  · rename_i hphase
    obtain ⟨isDevice, -, h⟩ := bind_eq_ok.mp h
    split at h
    · obtain ⟨⟨err₁, dev₁⟩, hcall, h⟩ := bind_eq_ok.mp h
      cases h
      exact .phase1 hphase hcall
    · cases h
      exact .refused (by decide)
  · split at h
    · rename_i hphase
      obtain ⟨isConfiguration, hanswer, h⟩ := bind_eq_ok.mp h
      split at h
      · rename_i hconfiguration
        rw [hconfiguration] at hanswer
        exact .phase2 hphase hanswer h
      · cases h
        exact .refused (by decide)
    · split at h
      · rename_i hphase
        split at h
        · rename_i hrequest
          obtain ⟨⟨err₁, dev₁⟩, hcall, h⟩ := bind_eq_ok.mp h
          cases h
          exact .phase3 hphase hrequest hcall
        · cases h
          exact .refused (by decide)
      · cases h
        exact .refused (by decide)

/-- What the completion of a control transfer does. -/
inductive ControlCompletes (m : Dma) (obs : DefaultObservers) (dev : Device) (pool : Pool)
    (setupData : SetupData) (buf : Addr) (len : Int) : Error → Device → Pool → Prop
  | driver {w : Addr} {err : Error} {dev' : Device} (hinit : dev.isInitialized = true)
      (hwaiter : dev.eventWaiters.get setupData = some w)
      (hcall : dev.driverOnControlCompleted w = .ok (err, dev')) :
      ControlCompletes m obs dev pool setupData buf len err dev' pool
  | noWaiter (hinit : dev.isInitialized = true)
      (hwaiter : dev.eventWaiters.get setupData = none) :
      ControlCompletes m obs dev pool setupData buf len .kNoWaiter dev pool
  | initializing {err : Error} {dev' : Device} {pool' : Pool} (hinit : dev.isInitialized = false)
      (hcall : continueInitialize m obs dev pool setupData buf len = .ok (err, dev', pool')) :
      ControlCompletes m obs dev pool setupData buf len err dev' pool'

/-- **A control completion** continues the initialization, or goes to the class driver that
waits for it, or is reported as unexpected. -/
theorem onControlCompleted_cases
    (h : onControlCompleted m obs dev pool setupData buf len = .ok (err, dev', pool')) :
    ControlCompletes m obs dev pool setupData buf len err dev' pool' := by
  unfold onControlCompleted at h
  split at h
  · rename_i hinit
    split at h
    · rename_i hwaiter
      obtain ⟨⟨err₁, dev₁⟩, hcall, h⟩ := bind_eq_ok.mp h
      cases h
      exact .driver hinit hwaiter hcall
    · rename_i hwaiter
      cases h
      exact .noWaiter hinit hwaiter
  · rename_i hinit
    exact .initializing (Bool.eq_false_iff.mpr hinit) h

/-- Whatever the phase is, at most one request follows from one answer. -/
theorem continueInitialize_issues
    (h : continueInitialize m obs dev pool setupData buf len = .ok (err, dev', pool')) :
    Issues dev err dev' := by
  cases continueInitialize_cases h with
  | phase1 _ hcall => exact initializePhase1_issues hcall
  | phase2 _ _ hcall => exact initializePhase2_issues hcall
  | phase3 _ _ hcall => exact Or.inl (initializePhase3_keeps hcall)
  | refused => exact Or.inl (.refl dev)

/-- **A control completion issues at most one request**, if no class driver
uses the control ring for its interrupt transfers. -/
theorem onControlCompleted_issues (hreserved : dev.ControlPipeReserved)
    (h : onControlCompleted m obs dev pool setupData buf len = .ok (err, dev', pool')) :
    Issues dev err dev' := by
  cases onControlCompleted_cases h with
  | driver _ _ hcall => exact Or.inl ((driverOnControlCompleted_keeps hcall).2 hreserved)
  | noWaiter => exact Or.inl (.refl dev)
  | initializing _ hcall => exact continueInitialize_issues hcall

end Completion

/-! ## The slot -/

/-- The first request of a device. -/
theorem startInitialize_keepsSlot {dev dev' : Device} {err : Error}
    (h : dev.startInitialize = .ok (err, dev')) : KeepsSlot dev dev' :=
  (startInitialize_issues h).keepsSlot

/-- **Rule for the loop over the class drivers**: what each call of `OnEndpointsConfigured` on a
class driver keeps, the loop keeps, whether it ends early or not. -/
theorem onEndpointsConfiguredFrom_induction (R : Device → Device → Prop) (hrefl : ∀ dev, R dev dev)
    (htrans : ∀ {a b c : Device}, R a b → R b c → R a c)
    (hcall : ∀ {dev dev' : Device} {k : Fin 16} {err : Error}, dev.classDrivers k ≠ nullptr →
      dev.driverOnEndpointsConfigured (dev.classDrivers k) = .ok (err, dev') → R dev dev')
    (left : Nat) : ∀ {i : Nat} {dev dev' : Device} {err : Error},
      dev.onEndpointsConfiguredFrom left i = .ok (err, dev') → R dev dev' := by
  induction left with
  | zero =>
      intro i dev dev' err h
      cases h
      exact hrefl dev
  | succ left ih =>
      intro i dev dev' err h
      unfold onEndpointsConfiguredFrom at h
      split at h
      · dsimp only at h
        split at h
        · rename_i hne
          obtain ⟨⟨err₁, dev₁⟩, hdriver, h⟩ := bind_eq_ok.mp h
          have hone : R dev dev₁ := hcall hne hdriver
          dsimp only at h
          split at h
          · cases h
            exact hone
          · exact htrans hone (ih h)
        · exact ih h
      · cases h
        exact hrefl dev

/-- The loop over the class drivers, by induction over the subscripts that are left. -/
theorem onEndpointsConfiguredFrom_keepsSlot (left : Nat) {i : Nat} {dev dev' : Device}
    {err : Error} (h : dev.onEndpointsConfiguredFrom left i = .ok (err, dev')) :
    KeepsSlot dev dev' :=
  onEndpointsConfiguredFrom_induction KeepsSlot .refl .trans
    (fun _ hcall => driverOnEndpointsConfigured_keepsSlot hcall) left h

/-- `OnEndpointsConfigured` lets the class drivers begin, all on the same device. -/
theorem onEndpointsConfigured_keepsSlot {dev dev' : Device} {err : Error}
    (h : dev.onEndpointsConfigured = .ok (err, dev')) : KeepsSlot dev dev' :=
  onEndpointsConfiguredFrom_keepsSlot 16 h

/-- **A control completion** never leaves the slot of the device. -/
theorem onControlCompleted_keepsSlot {m : Dma} {obs : DefaultObservers} {dev dev' : Device}
    {pool pool' : Pool} {setupData : SetupData} {buf : Addr} {len : Int} {err : Error}
    (h : onControlCompleted m obs dev pool setupData buf len = .ok (err, dev', pool')) :
    KeepsSlot dev dev' := by
  cases onControlCompleted_cases h with
  | driver _ _ hcall => exact (driverOnControlCompleted_keeps hcall).1
  | noWaiter => exact .refl dev
  | initializing _ hcall => exact (continueInitialize_issues hcall).keepsSlot

/-- The completion of an interrupt transfer leaves the slot of the device and its contexts as
they were. -/
theorem onInterruptCompleted_keepsSlot {m : Dma} {dev dev' : Device} {epId : EndpointID}
    {buf : Addr} {len : Int} {err : Error}
    (h : onInterruptCompleted m dev epId buf len = .ok (err, dev')) : KeepsSlot dev dev' := by
  unfold onInterruptCompleted at h
  split at h
  · dsimp only at h
    split at h
    · exact driverOnInterruptCompleted_keepsSlot h
    · cases h
      exact .refl dev
  · cases h

/-- A Transfer Event reports that its transfer failed. -/
def transferFailed (trb : Trb) : Bool :=
  decide (eventCompletionCode trb ≠ 1 ∧ eventCompletionCode trb ≠ 13)

/-- The transfer has succeeded with the codes Success and Short Packet, and with no other. -/
theorem transferFailed_eq_false {trb : Trb} :
    transferFailed trb = false ↔ eventCompletionCode trb = 1 ∨ eventCompletionCode trb = 13 := by
  unfold transferFailed
  rw [decide_eq_false_iff_not]
  tauto

/-- A failed transfer changes nothing. -/
theorem decodeTransferEvent_failed (m : Dma) (dev : Device) {trb : Trb}
    (h : transferFailed trb = true) :
    decodeTransferEvent m dev trb = (.failed .kTransferFailed, dev) := by
  rw [decodeTransferEvent, if_pos (of_decide_eq_true h)]

/-- The number of bytes transferred is the length in the TRB less the residual, for lengths that
the field of 17 bits can hold. -/
theorem transferred_eq {len : Int} {residual : BitVec 24} (h0 : 0 ≤ len) (hlen : len < 2 ^ 17)
    (hres : (residual.toNat : Int) ≤ len) :
    transferred (BitVec.ofInt 17 len) residual = len - residual.toNat := by
  obtain ⟨l, rfl⟩ := Int.eq_ofNat_of_zero_le h0
  have hl : l < 2 ^ 17 := by exact_mod_cast hlen
  have hr : residual.toNat ≤ l := by exact_mod_cast hres
  have hle : residual.setWidth 32 ≤ (BitVec.ofInt 17 l).setWidth 32 := by
    rw [BitVec.le_def]
    simp only [BitVec.toNat_setWidth, BitVec.ofInt_natCast, BitVec.toNat_ofNat]
    omega
  have hsub : ((BitVec.ofInt 17 l).setWidth 32 - residual.setWidth 32 : BitVec 32).toNat
      = l - residual.toNat := by
    rw [BitVec.toNat_sub_of_le hle]
    simp only [BitVec.toNat_setWidth, BitVec.ofInt_natCast, BitVec.toNat_ofNat]
    omega
  rw [transferred, BitVec.toInt_eq_toNat_of_lt (by rw [hsub]; omega), hsub]
  exact Int.ofNat_sub hr

/-- A transfer never counts more bytes than its TRB asked for, whatever residual
length is reported. -/
theorem transferred_le (length : BitVec 17) (residual : BitVec 24) :
    transferred length residual ≤ length.toNat := by
  have hlength := length.isLt
  have hresidual := residual.isLt
  unfold transferred
  rw [BitVec.toInt_eq_toNat_cond, BitVec.toNat_sub, BitVec.toNat_setWidth, BitVec.toNat_setWidth]
  split
  · omega
  · omega

/-- A Transfer Event for the TRB at `issuer` on an endpoint. -/
def transferEvent (issuer : Addr) (code : BitVec 8) (residual : BitVec 24) (epId : BitVec 5) :
    Trb :=
  (((Trb.zero.setParameter issuer).setBits 2 24 code).setBits 2 0 residual).setBits 3 16 epId

/-- The fields of a Transfer Event that the driver reads are those that the event was made with.
-/
theorem transferEvent_fields (issuer : Addr) (code : BitVec 8) (residual : BitVec 24)
    (epId : BitVec 5) :
    (transferEvent issuer code residual epId).parameter = issuer ∧
      eventCompletionCode (transferEvent issuer code residual epId) = code ∧
      eventTransferLength (transferEvent issuer code residual epId) = residual ∧
      eventEndpointId (transferEvent issuer code residual epId) = epId := by
  refine ⟨?_, ?_, ?_, ?_⟩
  · have hparameter : (transferEvent issuer code residual epId).parameter =
        (Trb.zero.setParameter issuer).parameter := by
      unfold transferEvent
      apply Trb.parameter_congr
      · rw [Trb.data_setBits_of_ne _ _ _ (by decide), Trb.data_setBits_of_ne _ _ _ (by decide),
          Trb.data_setBits_of_ne _ _ _ (by decide)]
      · rw [Trb.data_setBits_of_ne _ _ _ (by decide), Trb.data_setBits_of_ne _ _ _ (by decide),
          Trb.data_setBits_of_ne _ _ _ (by decide)]
    rw [hparameter, Trb.parameter_setParameter]
  · unfold eventCompletionCode transferEvent
    rw [Trb.bits_setBits_of_disjoint _ _ _ _ _ _ (by decide),
      Trb.bits_setBits_of_disjoint _ _ _ _ _ _ (by decide),
      Trb.bits_setBits_same _ _ _ _ (by decide)]
  · unfold eventTransferLength transferEvent
    rw [Trb.bits_setBits_of_disjoint _ _ _ _ _ _ (by decide),
      Trb.bits_setBits_same _ _ _ _ (by decide)]
  · exact Trb.bits_setBits_same _ _ _ _ (by decide)

/-- Decoding a Transfer Event removes at most an entry of `setup_stage_map_` and leaves the rest
of the device as it is. -/
theorem decodeTransferEvent_cases (m : Dma) (dev : Device) (trb : Trb) :
    (decodeTransferEvent m dev trb).2 = dev ∨ (decodeTransferEvent m dev trb).2 =
      { dev with setupStageMap := dev.setupStageMap.delete trb.parameter } := by
  unfold decodeTransferEvent
  split
  · exact Or.inl rfl
  · dsimp only
    split
    · exact Or.inl rfl
    · split
      · exact Or.inl rfl
      · exact Or.inr rfl

/-- Only the completion of a Normal TRB is taken for an interrupt, and decoding it changes
nothing in the device. -/
theorem decodeTransferEvent_interrupt {m : Dma} {dev dev' : Device} {trb : Trb}
    {epId : EndpointID} {buf : Addr} {len : Int}
    (h : decodeTransferEvent m dev trb = (.interrupt epId buf len, dev')) :
    (trbAt m dev trb.parameter).trbType = normalType ∧ dev' = dev := by
  unfold decodeTransferEvent at h
  split at h
  · cases h
  · dsimp only at h
    split at h
    · rename_i htype
      cases h
      exact ⟨htype, rfl⟩
    · split at h
      · cases h
      · unfold decodeControl at h
        dsimp only at h
        split at h
        · cases h
        · split at h
          · cases h
          · cases h

/-- Finding out which transfer an event is about changes at most the map of the control
transfers. -/
theorem decodeTransferEvent_keepsSlot (m : Dma) (dev : Device) (trb : Trb) :
    KeepsSlot dev (decodeTransferEvent m dev trb).2 := by
  rcases decodeTransferEvent_cases m dev trb with hdecoded | hdecoded
  · rw [hdecoded]
    exact .refl dev
  · rw [hdecoded]
    exact ⟨rfl, rfl, rfl, rfl⟩

/-- **Transfer Events keep the slot of their device**, whatever the event is and however far the
device is initialized. -/
theorem onTransferEventReceived_keepsSlot {m : Dma} {obs : DefaultObservers} {dev dev' : Device}
    {pool pool' : Pool} {trb : Trb} {err : Error}
    (h : onTransferEventReceived m obs dev pool trb = .ok (err, dev', pool')) :
    KeepsSlot dev dev' := by
  unfold onTransferEventReceived at h
  have hdecoded := decodeTransferEvent_keepsSlot m dev trb
  generalize decodeTransferEvent m dev trb = decoded at h hdecoded
  obtain ⟨completion, dev₁⟩ := decoded
  cases completion with
  | failed err =>
      cases h
      exact hdecoded
  | interrupt epId buf len =>
      obtain ⟨⟨err₁, dev₂⟩, hcomplete, h⟩ := bind_eq_ok.mp h
      cases h
      exact hdecoded.trans (onInterruptCompleted_keepsSlot hcomplete)
  | control setupData buf len => exact hdecoded.trans (onControlCompleted_keepsSlot h)

end Mikanos.Xhci.Device
