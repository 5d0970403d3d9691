import Mathlib.Logic.Relation
import Mikanos.Xhci.PoolExhaustion

/-!
# What a call does to a device

`KeepsSlot` and `FilledIn` are what the device layer leaves alone.  This module is
about what it does: each call is a sequence of effects from a short list.  A field changes
that no memory depends on, a class driver changes its state, a request is put on a ring, and
a class driver or a transfer ring is made with memory from the pool.

Requests name a buffer for the controller to read or write.  `OwnBuffer` lists the buffers
that the layer names, and the effect of a request carries that it is one of them.

So what every effect keeps, every call keeps (`Effects.induction`), and the traversal of the
layer is done here once.
-/

namespace Mikanos.Xhci

/-- `Push` leaves the TRBs where they are. -/
theorem Ring.push_place {r r' : Ring} {trb : Trb} {p : Addr} (h : r.push trb = .ok (p, r')) :
    r'.buf = r.buf ∧ r'.bufSize = r.bufSize := by
  obtain ⟨hbuf, hsize, -, -⟩ := Ring.applyStores_frame (r.pushStores trb) r.advance
  unfold Ring.push at h
  split at h
  · cases h
  · cases h
    exact ⟨hbuf.trans (Ring.advance_buf r), hsize.trans (Ring.advance_bufSize r)⟩

namespace Device

open Relation Mikanos.Usb

/-- The buffers of the requests: none, the buffer of the device, which is for descriptors, and
the buffer of a class driver, which is for reports. -/
inductive OwnBuffer (dev : Device) : Addr → Int → Prop
  | none : OwnBuffer dev nullptr 0
  | descriptor : OwnBuffer dev dev.buffer 256
  | report {p : Addr} {d : HidDriver} (hdriver : dev.drivers p = some d) :
      OwnBuffer dev (hidBuffer p) d.inPacketSize

/-- One effect on a device and the pool. -/
inductive Effect : Device × Pool → Device × Pool → Prop
  /-- A change of other fields. -/
  | fields {dev dev' : Device} {pool : Pool} (hself : dev'.self = dev.self)
      (hrings : dev'.transferRings = dev.transferRings) (hdrivers : dev'.drivers = dev.drivers) :
      Effect (dev, pool) (dev', pool)
  /-- A class driver changes its state. -/
  | driver {dev : Device} {pool : Pool} {p : Addr} {d d' : HidDriver}
      (hdriver : dev.drivers p = some d) (hsize : d'.inPacketSize = d.inPacketSize) :
      Effect (dev, pool) (dev.setDriver p d', pool)
  /-- A request on a control pipe that brings data. -/
  | controlIn {dev dev' : Device} {pool : Pool} {epId : EndpointID} {setupData : SetupData}
      {buf : Addr} {len : Int} {issuer : Addr} {err : Error} (hbuffer : OwnBuffer dev buf len)
      (hcall : dev.controlIn epId setupData buf len issuer = .ok (err, dev')) :
      Effect (dev, pool) (dev', pool)
  /-- The other requests on a control pipe. -/
  | controlOut {dev dev' : Device} {pool : Pool} {epId : EndpointID} {setupData : SetupData}
      {buf : Addr} {len : Int} {issuer : Addr} {err : Error} (hbuffer : OwnBuffer dev buf len)
      (hcall : dev.controlOut epId setupData buf len issuer = .ok (err, dev')) :
      Effect (dev, pool) (dev', pool)
  /-- A request for a report. -/
  | interrupt {dev dev' : Device} {pool : Pool} {epId : EndpointID} {buf : Addr} {len : Int}
      {err : Error} (hbuffer : OwnBuffer dev buf len)
      (hcall : dev.interruptIn epId buf len = .ok (err, dev')) : Effect (dev, pool) (dev', pool)
  /-- A class driver for an interface, if it is supported. -/
  | newDriver {obs : DefaultObservers} {dev dev' : Device} {pool pool' : Pool}
      {ifDesc : InterfaceDescriptor} {p : Addr}
      (hcall : newClassDriver obs dev ifDesc pool = .ok (p, dev', pool')) :
      Effect (dev, pool) (dev', pool')
  /-- A transfer ring. -/
  | newRing {dev : Device} {pool : Pool} {i : Fin 31} {result : Option Ring × Device × Pool}
      (hcall : dev.allocTransferRing i 32 pool = result) :
      Effect (dev, pool) (result.2.1, result.2.2)

/-- A sequence of effects. -/
def Effects (dev : Device) (pool : Pool) (dev' : Device) (pool' : Pool) : Prop :=
  ReflTransGen Effect (dev, pool) (dev', pool')

section Sequences

variable {m : Dma} {obs : DefaultObservers} {dev dev' dev'' : Device} {pool pool' pool'' : Pool}
  {p buf : Addr} {len : Int} {err : Error}

theorem Effects.refl (dev : Device) (pool : Pool) : Effects dev pool dev pool := ReflTransGen.refl

/-- The effects of one call, followed by those of another. -/
theorem Effects.trans (h : Effects dev pool dev' pool') (h' : Effects dev' pool' dev'' pool'') :
    Effects dev pool dev'' pool'' := ReflTransGen.trans h h'

/-- A change of other fields. -/
theorem Effects.of_fields (hself : dev'.self = dev.self)
    (hrings : dev'.transferRings = dev.transferRings) (hdrivers : dev'.drivers = dev.drivers) :
    Effects dev pool dev' pool := .single (.fields hself hrings hdrivers)

/-- **The rule for calls**: what one effect does, in the sense of a reflexive and transitive
relation, a sequence of effects does. -/
theorem Effects.induction (R : Device → Pool → Device → Pool → Prop)
    (hrefl : ∀ dev pool, R dev pool dev pool)
    (htrans : ∀ {dev pool dev' pool' dev'' pool''}, R dev pool dev' pool' →
      R dev' pool' dev'' pool'' → R dev pool dev'' pool'')
    (heffect : ∀ {dev pool dev' pool'}, Effect (dev, pool) (dev', pool') → R dev pool dev' pool')
    (h : Effects dev pool dev' pool') : R dev pool dev' pool' := by
  have hall : ∀ s, ReflTransGen Effect (dev, pool) s → R dev pool s.1 s.2 := by
    intro s hs
    induction hs with
    | refl => exact hrefl dev pool
    | tail _ hstep ih => exact htrans ih (heffect hstep)
  exact hall _ h

/-! ## Requests -/

/-- A transfer that has been issued is on the ring of its endpoint; one that has failed has at
most left a waiter. -/
theorem controlTransfer_pushed {type : BitVec 2} {dirIn : Bool} {status : Trb}
    {epId : EndpointID} {setupData : SetupData} {issuer : Addr}
    (h : dev.controlTransfer type dirIn status epId setupData buf len issuer = .ok (err, dev')) :
    dev' = dev.addWaiter setupData issuer ∨ ∃ i dci tr pushed,
      (dev.addWaiter setupData issuer).transferRings i = some tr ∧
        pushTransfer tr type dirIn status setupData buf len = .ok pushed ∧
        dev' = (dev.addWaiter setupData issuer).noteTransfer i dci pushed := by
  unfold controlTransfer at h
  split at h
  · cases h
    exact Or.inl rfl
  · obtain ⟨i, -, h⟩ := bind_eq_ok.mp h
    split at h
    · cases h
      exact Or.inl rfl
    · rename_i tr hring
      obtain ⟨pushed, hpush, h⟩ := bind_eq_ok.mp h
      cases h
      exact Or.inr ⟨i, _, tr, pushed, hring, hpush, rfl⟩

/-- The TRBs of a request are put on the ring, which stays where it is in memory and as long as
it was. -/
theorem pushTransfer_place {tr : Ring} {dataType : BitVec 2} {dirIn : Bool} {dataStatus : Trb}
    {setupData : SetupData} {pushed : Addr × Addr × Ring}
    (h : pushTransfer tr dataType dirIn dataStatus setupData buf len = .ok pushed) :
    pushed.2.2.buf = tr.buf ∧ pushed.2.2.bufSize = tr.bufSize := by
  unfold pushTransfer at h
  split at h
  · unfold pushWithData at h
    obtain ⟨⟨setupPosition, tr₁⟩, hsetup, h⟩ := bind_eq_ok.mp h
    obtain ⟨⟨dataPosition, tr₂⟩, hdata, h⟩ := bind_eq_ok.mp h
    obtain ⟨⟨statusPosition, tr₃⟩, hstatus, h⟩ := bind_eq_ok.mp h
    cases h
    obtain ⟨hbuf₁, hsize₁⟩ := Ring.push_place hsetup
    obtain ⟨hbuf₂, hsize₂⟩ := Ring.push_place hdata
    obtain ⟨hbuf₃, hsize₃⟩ := Ring.push_place hstatus
    exact ⟨hbuf₃.trans (hbuf₂.trans hbuf₁), hsize₃.trans (hsize₂.trans hsize₁)⟩
  · unfold pushNoData at h
    obtain ⟨⟨setupPosition, tr₁⟩, hsetup, h⟩ := bind_eq_ok.mp h
    obtain ⟨⟨statusPosition, tr₂⟩, hstatus, h⟩ := bind_eq_ok.mp h
    cases h
    obtain ⟨hbuf₁, hsize₁⟩ := Ring.push_place hsetup
    obtain ⟨hbuf₂, hsize₂⟩ := Ring.push_place hstatus
    exact ⟨hbuf₂.trans hbuf₁, hsize₂.trans hsize₁⟩

/-- A request for a report is on the ring of its endpoint, as a Normal TRB with the buffer and
the length of the request, or there is no ring and no effect. -/
theorem interruptIn_pushed {epId : EndpointID}
    (h : dev.interruptIn epId buf len = .ok (err, dev')) :
    dev' = dev ∨ ∃ i tr position tr', dev.transferRings i = some tr ∧
      tr.push (normalTRB buf (BitVec.ofInt 17 len)) = .ok (position, tr') ∧
      dev' = (dev.setRing i (some tr')).ringDoorbell epId.address := by
  unfold interruptIn at h
  obtain ⟨i, -, h⟩ := bind_eq_ok.mp h
  split at h
  · cases h
    exact Or.inl rfl
  · rename_i tr hring
    obtain ⟨⟨position, tr'⟩, hpush, h⟩ := bind_eq_ok.mp h
    cases h
    exact Or.inr ⟨i, tr, position, tr', hring, hpush, rfl⟩

/-- A request for a descriptor brings its data to the buffer of the device. -/
theorem getDescriptor_effects {descType descIndex : BitVec 8}
    (h : dev.getDescriptor kDefaultControlPipeID descType descIndex dev.buffer 256 =
      .ok (err, dev')) : Effects dev pool dev' pool := by
  unfold getDescriptor at h
  exact .single (.controlIn .descriptor h)

/-- `SET_CONFIGURATION` has no data. -/
theorem setConfiguration_effects {configValue : BitVec 8}
    (h : dev.setConfiguration kDefaultControlPipeID configValue = .ok (err, dev')) :
    Effects dev pool dev' pool := by
  unfold setConfiguration at h
  exact .single (.controlOut .none h)

/-! ## Class drivers -/

/-- `SET_PROTOCOL` of a class driver has no data either. -/
theorem driverOnEndpointsConfigured_effects
    (h : dev.driverOnEndpointsConfigured p = .ok (err, dev')) : Effects dev pool dev' pool := by
  unfold driverOnEndpointsConfigured at h
  obtain ⟨d, hd, h⟩ := bind_eq_ok.mp h
  have hphase : Effects dev pool (dev.setDriver p { d with initializePhase := 1 }) pool :=
    .single (.driver (driverAt_eq_ok hd) rfl)
  exact hphase.trans (.single (.controlOut .none h))

/-- The class driver asks for its first report, in its own buffer, or does nothing. -/
theorem driverOnControlCompleted_effects
    (h : dev.driverOnControlCompleted p = .ok (err, dev')) : Effects dev pool dev' pool := by
  obtain ⟨d, hd, ⟨-, h⟩ | ⟨-, -, rfl⟩⟩ := driverOnControlCompleted_cases h
  · have hphase : Effects dev pool (dev.setDriver p { d with initializePhase := 2 }) pool :=
      .single (.driver hd rfl)
    have hdriver : (dev.setDriver p { d with initializePhase := 2 }).drivers p =
        some { d with initializePhase := 2 } := Function.update_self _ _ _
    exact hphase.trans (.single (.interrupt (.report hdriver) h))
  · exact .refl _ _

/-- Neither `OnDataReceived` nor the copy of the report changes the size of the reports that the
driver asks for. -/
theorem inPacketSize_reported {d d₁ d₂ : HidDriver} (hdata : driverOnDataReceived m p d = .ok d₁)
    (hkept : keepReport m p d₁ len = .ok d₂) : d₂.inPacketSize = d.inPacketSize := by
  have hfirst : d₁.inPacketSize = d.inPacketSize := by
    unfold driverOnDataReceived at hdata
    split at hdata
    · obtain ⟨report, -, hdata⟩ := bind_eq_ok.mp hdata
      cases hdata
      rfl
    · obtain ⟨x, -, hdata⟩ := bind_eq_ok.mp hdata
      obtain ⟨y, -, hdata⟩ := bind_eq_ok.mp hdata
      cases hdata
      rfl
  unfold keepReport at hkept
  split at hkept
  · cases hkept
  · obtain ⟨copied, -, hkept⟩ := bind_eq_ok.mp hkept
    cases hkept
    exact hfirst

/-- The class driver takes a report over and asks for the next one in its own buffer, with the
size it had before. -/
theorem driverOnInterruptCompleted_effects {epId : EndpointID}
    (h : driverOnInterruptCompleted m dev p epId buf len = .ok (err, dev')) :
    Effects dev pool dev' pool := by
  unfold driverOnInterruptCompleted at h
  obtain ⟨d, hd, h⟩ := bind_eq_ok.mp h
  split at h
  · obtain ⟨d₁, hdata, h⟩ := bind_eq_ok.mp h
    obtain ⟨d₂, hkept, h⟩ := bind_eq_ok.mp h
    have htaken : Effects dev pool (dev.setDriver p d₂) pool :=
      .single (.driver (driverAt_eq_ok hd) (inPacketSize_reported hdata hkept))
    have hdriver : (dev.setDriver p d₂).drivers p = some d₂ := Function.update_self _ _ _
    exact htaken.trans (.single (.interrupt (.report hdriver) h))
  · cases h
    exact .refl _ _

/-- **A report** is a sequence of effects: the driver takes the data over and asks for the next
report in its own buffer. -/
theorem onInterruptCompleted_effects {epId : EndpointID}
    (h : onInterruptCompleted m dev epId buf len = .ok (err, dev')) :
    Effects dev pool dev' pool := by
  unfold onInterruptCompleted at h
  split at h
  · dsimp only at h
    split at h
    · exact driverOnInterruptCompleted_effects h
    · cases h
      exact .refl _ _
  · cases h

/-- `OnEndpointsConfigured` is a sequence of such requests, one for each driver in the table. -/
theorem onEndpointsConfigured_effects (h : dev.onEndpointsConfigured = .ok (err, dev')) :
    Effects dev pool dev' pool :=
  onEndpointsConfiguredFrom_induction (fun dev dev' => Effects dev pool dev' pool)
    (fun dev => .refl dev pool) .trans
    (fun _ hcall => driverOnEndpointsConfigured_effects hcall) 16 h

/-! ## Initialization -/

/-- The first request of the initialization. -/
theorem startInitialize_effects (h : dev.startInitialize = .ok (err, dev')) :
    Effects dev pool dev' pool := by
  unfold startInitialize at h
  have hphase : Effects dev pool { dev with isInitialized := false, initializePhase := 1 } pool :=
    .of_fields rfl rfl rfl
  exact hphase.trans (getDescriptor_effects h)

/-- Phase 1 counts on and asks for the next descriptor. -/
theorem initializePhase1_effects (h : initializePhase1 m dev buf = .ok (err, dev')) :
    Effects dev pool dev' pool := by
  obtain ⟨numConfigurations, h⟩ := initializePhase1_request h
  have hphase : Effects dev pool { dev with
      numConfigurations := numConfigurations, configIndex := 0, initializePhase := 2 } pool :=
    .of_fields rfl rfl rfl
  exact hphase.trans (getDescriptor_effects h)

/-- Telling the class drivers their endpoints is a sequence of effects, one for each entry, by
induction on their number. -/
theorem setEndpoints_effects (n : Nat) :
    ∀ {dev'}, dev.setEndpoints n = .ok dev' → Effects dev pool dev' pool := by
  induction n with
  | zero =>
      intro dev' h
      cases h
      exact .refl _ _
  | succ n ih =>
      intro dev' h
      obtain ⟨dev₁, hn, k, d, hrest, -, hd, rfl⟩ := setEndpoints_succ h
      have hsize : (hidSetEndpoint d (dev₁.epConfigs ⟨n, hn⟩)).inPacketSize = d.inPacketSize := by
        unfold hidSetEndpoint
        split
        · rfl
        · split
          · rfl
          · rfl
      exact (ih hrest).trans (.single (.driver hd hsize))

/-- Phase 3 tells the drivers their endpoints, which changes no driver's buffer. -/
theorem initializePhase3_effects (h : dev.initializePhase3 = .ok (err, dev')) :
    Effects dev pool dev' pool := by
  unfold initializePhase3 at h
  obtain ⟨dev₁, hset, h⟩ := bind_eq_ok.mp h
  cases h
  exact (setEndpoints_effects _ hset).trans (.of_fields rfl rfl rfl)

/-- The loop over the endpoints of an interface fills in the tables, one effect for each
endpoint, by induction on the fuel. -/
theorem endpointLoop_effects {numEndpoints : BitVec 8} (fuel : Nat) :
    ∀ {r r' : Reader} {dev dev' : Device},
      endpointLoop m numEndpoints p fuel r dev = .ok (r', dev') → Effects dev pool dev' pool := by
  induction fuel with
  | zero =>
      intro r r' dev dev' h
      cases h
  | succ fuel ih =>
      intro r r' dev dev' h
      unfold endpointLoop at h
      split at h
      · obtain ⟨⟨desc, r₁⟩, -, h⟩ := bind_eq_ok.mp h
        dsimp only at h
        split at h
        · cases h
        · obtain ⟨type, -, h⟩ := bind_eq_ok.mp h
          split at h
          · obtain ⟨conf, -, h⟩ := bind_eq_ok.mp h
            obtain ⟨dev₁, hadd, h⟩ := bind_eq_ok.mp h
            have hone : Effects dev pool dev₁ pool := by
              unfold addEndpoint at hadd
              split at hadd
              · cases hadd
                exact .of_fields rfl rfl rfl
              · cases hadd
            exact hone.trans (ih h)
          · split at h
            · obtain ⟨-, -, h⟩ := bind_eq_ok.mp h
              exact ih h
            · exact ih h
      · cases h
        exact .refl _ _

/-- The loop over the interfaces makes at most one class driver and fills in the tables, by
induction on the fuel. -/
theorem interfaceLoop_effects {loopFuel : Nat} (fuel : Nat) :
    ∀ {r : Reader} {dev dev' : Device} {pool pool' : Pool} {p : Addr},
      interfaceLoop m obs loopFuel fuel r dev pool = .ok (p, dev', pool') →
      Effects dev pool dev' pool' := by
  induction fuel with
  | zero =>
      intro r dev dev' pool pool' p h
      cases h
  | succ fuel ih =>
      intro r dev dev' pool pool' p h
      unfold interfaceLoop at h
      obtain ⟨⟨ifOffset, r₁⟩, -, h⟩ := bind_eq_ok.mp h
      dsimp only at h
      split at h
      · cases h
        exact .refl _ _
      · obtain ⟨ifDesc, -, h⟩ := bind_eq_ok.mp h
        obtain ⟨⟨classDriver, dev₁, pool₁⟩, hnew, h⟩ := bind_eq_ok.mp h
        have hone : Effects dev pool dev₁ pool₁ := .single (.newDriver hnew)
        dsimp only at h
        split at h
        · exact hone.trans (ih h)
        · obtain ⟨⟨r₂, dev₂⟩, hloop, h⟩ := bind_eq_ok.mp h
          have hclear : Effects dev₁ pool₁ dev₁.clearEndpoints pool₁ := .of_fields rfl rfl rfl
          have hfilled : Effects dev₁ pool₁ dev₂ pool₁ :=
            hclear.trans (endpointLoop_effects loopFuel hloop)
          cases h
          exact hone.trans hfilled

/-- Selecting the configuration is a request without data, so it puts no buffer into a TRB. -/
theorem selectConfiguration_effects {m : Dma} {buf p : Addr} {dev dev' : Device}
    {pool pool' : Pool} {err : Error}
    (h : selectConfiguration m buf p dev pool = .ok (err, dev', pool')) :
    Effects dev pool dev' pool' := by
  unfold selectConfiguration at h
  split at h
  · cases h
    exact .refl _ _
  · obtain ⟨configurationValue, -, h⟩ := bind_eq_ok.mp h
    obtain ⟨⟨err₁, dev₁⟩, hset, h⟩ := bind_eq_ok.mp h
    cases h
    have hphase : Effects dev pool { dev with initializePhase := 3 } pool :=
      .of_fields rfl rfl rfl
    exact hphase.trans (setConfiguration_effects hset)

/-- **Phase 2**: the walk over the descriptors may make a class driver, which takes memory, and
fills tables, which does not. -/
theorem initializePhase2_effects
    (h : initializePhase2 m obs dev pool buf len = .ok (err, dev', pool')) :
    Effects dev pool dev' pool' := by
  unfold initializePhase2 at h
  obtain ⟨type, -, h⟩ := bind_eq_ok.mp h
  split at h
  · cases h
    exact .refl _ _
  · generalize loopFuelOf len = fuel at h
    obtain ⟨⟨q, dev₁, pool₁⟩, hloop, h⟩ := bind_eq_ok.mp h
    have hfilled : Effects dev pool dev₁ pool₁ := interfaceLoop_effects fuel hloop
    exact hfilled.trans (selectConfiguration_effects h)

/-! ## Completions -/

/-- **A control completion** is a sequence of effects in each of the ways in which it can go on.
-/
theorem onControlCompleted_effects {setupData : SetupData}
    (h : onControlCompleted m obs dev pool setupData buf len = .ok (err, dev', pool')) :
    Effects dev pool dev' pool' := by
  cases onControlCompleted_cases h with
  | driver _ _ hcall => exact driverOnControlCompleted_effects hcall
  | noWaiter => exact .refl _ _
  | initializing _ hcall =>
      cases continueInitialize_cases hcall with
      | phase1 _ hphase => exact initializePhase1_effects hphase
      | phase2 _ _ hphase => exact initializePhase2_effects hphase
      | phase3 _ _ hphase => exact initializePhase3_effects hphase
      | refused => exact .refl _ _

/-- **A Transfer Event** is a sequence of effects, so what every effect keeps is kept by the
whole handler. -/
theorem onTransferEventReceived_effects {trb : Trb}
    (h : onTransferEventReceived m obs dev pool trb = .ok (err, dev', pool')) :
    Effects dev pool dev' pool' := by
  unfold onTransferEventReceived at h
  have hdecoded : Effects dev pool (decodeTransferEvent m dev trb).2 pool := by
    rcases decodeTransferEvent_cases m dev trb with hdecoded | hdecoded
    · rw [hdecoded]
      exact .refl _ _
    · rw [hdecoded]
      exact .of_fields rfl rfl rfl
  generalize decodeTransferEvent m dev trb = decoded at h hdecoded
  obtain ⟨completion, dev₁⟩ := decoded
  cases completion with
  | failed err =>
      cases h
      exact hdecoded
  | interrupt epId buf len =>
      obtain ⟨⟨err₁, dev₂⟩, hcomplete, h⟩ := bind_eq_ok.mp h
      cases h
      exact hdecoded.trans (onInterruptCompleted_effects hcomplete)
  | control setupData buf len => exact hdecoded.trans (onControlCompleted_effects h)

/-! ## Endpoints -/

/-- The control ring is entered in the contexts of the device. -/
theorem useControlRing_effects {result : Option Ring × Device × Pool}
    (h : useControlRing result = .ok (dev', pool')) :
    Effects result.2.1 result.2.2 dev' pool' := by
  obtain ⟨-, rfl⟩ := useControlRing_requests h
  obtain ⟨inputContext, rfl⟩ := useControlRing_fields h
  exact .of_fields rfl rfl rfl

/-- The ring of an endpoint is entered there too. -/
theorem useEndpointRing_effects {i : Fin 31} {conf : EndpointConfig} {portSpeed : BitVec 4}
    {result : Option Ring × Device × Pool}
    (h : useEndpointRing i conf portSpeed result = .ok (dev', pool')) :
    Effects result.2.1 result.2.2 dev' pool' := by
  obtain ⟨-, rfl, -⟩ := useEndpointRing_requests h
  obtain ⟨inputContext, rfl⟩ := useEndpointRing_fields h
  exact .of_fields rfl rfl rfl

/-- The loop of `ConfigureEndpoints` makes one ring in each round, by induction on the rounds.
-/
theorem configureEndpointLoop_effects {portSpeed : BitVec 4} (n : Nat) :
    ∀ {dev' : Device} {pool' : Pool},
      configureEndpointLoop portSpeed dev pool n = .ok (dev', pool') →
      Effects dev pool dev' pool' := by
  induction n with
  | zero =>
      intro dev' pool' h
      cases h
      exact .refl _ _
  | succ n ih =>
      intro dev' pool' h
      obtain ⟨dev₁, pool₁, hn, i, hrest, -, h⟩ := configureEndpointLoop_succ h
      obtain ⟨result, hresult⟩ : ∃ result,
        (dev₁.enableInputEndpoint i).allocTransferRing i 32 pool₁ = result := ⟨_, rfl⟩
      rw [hresult] at h
      have henable : Effects dev₁ pool₁ (dev₁.enableInputEndpoint i) pool₁ :=
        .of_fields rfl rfl rfl
      have hring : Effects (dev₁.enableInputEndpoint i) pool₁ result.2.1 result.2.2 :=
        .single (.newRing hresult)
      exact (ih hrest).trans (henable.trans (hring.trans (useEndpointRing_effects h)))

end Sequences

end Device

end Mikanos.Xhci
