import Mikanos.Xhci.DeviceRuns

/-!
# The phases of initialization

`initialize_phase_` counts the answers a device has given: 1 while the device
descriptor is awaited, 2 and 3 while the configuration and the confirmation of
`SET_CONFIGURATION` are, and 4 from then on.  `StartInitialize` can be called at
any time and keeps the tables of an earlier round, so what is known of them is
bound to the phase: from 3 on each endpoint that counts has a class driver.
-/

namespace Mikanos.Xhci.Device

open Relation Mikanos.Usb

/-! ## Calls -/

/-- A call of `StartInitialize` or `OnControlCompleted`, with any arguments.  Data
received with `GET_DESCRIPTOR` is in a buffer of 256 bytes.  Between the calls the
derived class works on its own members. -/
inductive InitializeCall : Device → Device → Prop
  | startInitialize {dev dev' : Device} {err : Error}
      (hcall : dev.startInitialize = .ok (err, dev')) : InitializeCall dev dev'
  | onControlCompleted {m : Dma} {obs : DefaultObservers} {dev dev' : Device}
      {pool pool' : Usb.Pool} {setupData : SetupData} {buf : Addr} {len : Int} {err : Error}
      (hreceived : setupData.request = kGetDescriptor → (m.bytes buf).length = 256 ∧ len ≤ 256)
      (hcall : onControlCompleted m obs dev pool setupData buf len = .ok (err, dev', pool')) :
      InitializeCall dev dev'
  | derived {dev : Device} {slotContext : SlotContext} {inputContext : InputContext}
      {transferRings : Fin 31 → Option Ring} {setupStageMap : ArrayMap Addr Addr 16}
      {doorbell : List (BitVec 8)} :
      InitializeCall dev { dev with
        slotContext := slotContext
        inputContext := inputContext
        transferRings := transferRings
        setupStageMap := setupStageMap
        doorbell := doorbell }

/-- As the constructor of `usb::Device` leaves it. -/
structure Constructed (dev : Device) : Prop where
  isInitialized : dev.isInitialized = false
  initializePhase : dev.initializePhase = 0
  classDrivers : ∀ k, dev.classDrivers k = nullptr

/-- The completion is the one that the device waits for. -/
def Matches (m : Dma) (dev : Device) (setupData : SetupData) (buf : Addr) : Prop :=
  if dev.isInitialized then ∃ w, dev.eventWaiters.get setupData = some w
  else
    (dev.initializePhase = 1 ∧ setupData.request = kGetDescriptor ∧
        (m.bytes buf)[1]? = some kDeviceDescriptor) ∨
      (dev.initializePhase = 2 ∧ setupData.request = kGetDescriptor ∧
        (m.bytes buf)[1]? = some kConfigurationDescriptor) ∨
      (dev.initializePhase = 3 ∧ setupData.request = kSetConfiguration)

/-! ## A completion out of turn -/

/-- The test for a descriptor always comes out, if a request for a descriptor has been answered
into a buffer. -/
theorem isDescriptor_eq {m : Dma} {setupData : SetupData} {buf : Addr} (kType : BitVec 8)
    (hreceived : setupData.request = kGetDescriptor →
      buf ≠ nullptr ∧ (m.bytes buf).length = 256) :
    isDescriptor m (setupData.request == kGetDescriptor) buf kType =
      .ok (decide (setupData.request = kGetDescriptor ∧ (m.bytes buf)[1]? = some kType)) := by
  unfold isDescriptor
  by_cases hrequest : setupData.request = kGetDescriptor
  · obtain ⟨hbuf, hsize⟩ := hreceived hrequest
    obtain ⟨type, htype⟩ : ∃ type, (m.bytes buf)[1]? = some type :=
      ⟨_, List.getElem?_eq_getElem (by omega)⟩
    have hbyte : m.byte buf 1 = .ok type := by
      unfold Dma.byte
      rw [if_neg hbuf, htype]
    rw [if_pos (by simpa using hrequest), hbyte, htype]
    change Except.ok (type == kType) = _
    rw [beq_eq_decide]
    congr 1
    simp only [hrequest, true_and, Option.some.injEq]
  · rw [if_neg (by simpa using hrequest), decide_eq_false (fun h => hrequest h.1)]

/-- **A completion out of turn** is an error and changes nothing, neither in the device nor in
the pool. -/
theorem onControlCompleted_unmatched {m : Dma} {obs : DefaultObservers} {dev : Device}
    {pool : Usb.Pool} {setupData : SetupData} {buf : Addr} {len : Int}
    (hreceived : setupData.request = kGetDescriptor →
      buf ≠ nullptr ∧ (m.bytes buf).length = 256)
    (h : ¬ Matches m dev setupData buf) :
    ∃ err, err ≠ .kSuccess ∧
      onControlCompleted m obs dev pool setupData buf len = .ok (err, dev, pool) := by
  unfold Matches at h
  unfold onControlCompleted
  cases hinit : dev.isInitialized with
  | true =>
      rw [hinit, if_pos rfl] at h
      cases hw : dev.eventWaiters.get setupData with
      | none => exact ⟨.kNoWaiter, by decide, rfl⟩
      | some w => exact absurd ⟨w, hw⟩ h
  | false =>
      rw [hinit] at h
      obtain ⟨hone, h⟩ := not_or.mp h
      obtain ⟨htwo, hthree⟩ := not_or.mp h
      rw [if_neg Bool.false_ne_true]
      unfold continueInitialize
      dsimp only
      split
      · -- Phase 1, and not a device descriptor.
        rename_i hphase
        rw [isDescriptor_eq kDeviceDescriptor hreceived,
          decide_eq_false fun hanswer => hone ⟨hphase, hanswer⟩]
        exact ⟨.kInvalidPhase, by decide, rfl⟩
      · split
        · -- Phase 2, and not a configuration descriptor.
          rename_i hphase
          rw [isDescriptor_eq kConfigurationDescriptor hreceived,
            decide_eq_false fun hanswer => htwo ⟨hphase, hanswer⟩]
          exact ⟨.kInvalidPhase, by decide, rfl⟩
        · split
          · -- Phase 3, and another request.
            rename_i hphase
            rw [if_neg fun hrequest => hthree ⟨hphase, hrequest⟩]
            exact ⟨.kInvalidPhase, by decide, rfl⟩
          · exact ⟨.kNotImplemented, by decide, rfl⟩

/-! ## Endpoints and their drivers -/

/-- The driver pointers that are set point to drivers. -/
def DriversPresent (dev : Device) : Prop :=
  ∀ k, dev.classDrivers k ≠ nullptr → ∃ d, dev.drivers (dev.classDrivers k) = some d

/-- Each endpoint that counts has a class driver. -/
structure EndpointsServed (dev : Device) : Prop where
  fits : dev.numEpConfigs ≤ 16
  served : ∀ i : Fin 16, i.val < dev.numEpConfigs →
    ∃ k : Fin 16, (dev.epConfigs i).epId.number = k.val ∧ dev.classDrivers k ≠ nullptr

/-- The endpoints that `InitializePhase2` takes over are served by the class driver that it has
made. -/
theorem configured_served {dev : Device} {b : List (BitVec 8)} {len k j : Nat} {p : Addr}
    (d : HidDriver) (hp : p ≠ nullptr) (hwalked : Walked b len k j) :
    EndpointsServed (configured dev p d (endpointConfigs b k j)) := by
  constructor
  case fits =>
    change (endpointConfigs b k j).length ≤ 16
    rw [endpointConfigs, List.length_map]
    exact (length_endpointsSeen_le hwalked.takes).1
  case served =>
    intro i hi
    have hlt : i.val < (endpointConfigs b k j).length := hi
    obtain ⟨conf, hconf⟩ : ∃ conf, (endpointConfigs b k j)[i.val]? = some conf :=
      ⟨_, List.getElem?_eq_getElem hlt⟩
    have hentry : (configured dev p d (endpointConfigs b k j)).epConfigs i = conf := by
      change (endpointConfigs b k j).getD i.val (dev.epConfigs i) = conf
      rw [List.getD_eq_getElem?_getD, hconf, Option.getD_some]
    have hmem := List.mem_of_getElem? hconf
    obtain ⟨desc, -, hdesc⟩ := List.mem_map.mp hmem
    have hnumber := epConfig_number desc
    rw [hdesc] at hnumber
    refine ⟨⟨conf.epId.number.toNat, by omega⟩, ?_, ?_⟩
    · rw [hentry]
      exact (Int.toNat_of_nonneg hnumber.1).symm
    · have hany : (endpointConfigs b k j).any
          (fun conf' => conf'.epId.number == (conf.epId.number.toNat : Int)) = true := by
        refine List.any_eq_true.mpr ⟨conf, hmem, ?_⟩
        rw [Int.toNat_of_nonneg hnumber.1]
        exact beq_self_eq_true _
      change (if (endpointConfigs b k j).any _ then p else _) ≠ nullptr
      rw [hany, if_pos rfl]
      exact hp

/-- Every recorded endpoint has a driver to call, and so the loop of `InitializePhase3` ends
with all of them called. -/
theorem setEndpoints_served {dev : Device} (hpresent : DriversPresent dev) (n : Nat)
    (hn : n ≤ 16) (hserved : ∀ i : Fin 16, i.val < n →
      ∃ k : Fin 16, (dev.epConfigs i).epId.number = k.val ∧ dev.classDrivers k ≠ nullptr) :
    ∃ drivers, dev.setEndpoints n = .ok { dev with drivers := drivers } ∧
      ∀ p d, dev.drivers p = some d → ∃ d', drivers p = some d' := by
  induction n with
  | zero => exact ⟨dev.drivers, rfl, fun p d hd => ⟨d, hd⟩⟩
  | succ n ih =>
      have hn : n < 16 := hn
      obtain ⟨drivers, hrest, hkeeps⟩ :=
        ih (by omega) fun i hi => hserved i (Nat.lt_succ_of_lt hi)
      obtain ⟨k, hnumber, hk⟩ := hserved ⟨n, hn⟩ (Nat.lt_succ_self n)
      obtain ⟨d, hd⟩ := hpresent k hk
      obtain ⟨d', hd'⟩ := hkeeps _ d hd
      have hlt := k.isLt
      have hrange : 0 ≤ (dev.epConfigs ⟨n, hn⟩).epId.number ∧
          (dev.epConfigs ⟨n, hn⟩).epId.number < 16 := by
        omega
      have hindex : (⟨(dev.epConfigs ⟨n, hn⟩).epId.number.toNat, by omega⟩ : Fin 16) = k :=
        Fin.ext (by simp only [hnumber, Int.toNat_natCast])
      refine ⟨Function.update drivers (dev.classDrivers k)
        (some (hidSetEndpoint d' (dev.epConfigs ⟨n, hn⟩))), ?_, ?_⟩
      · refine bind_eq_ok.mpr ⟨_, hrest, ?_⟩
        rw [dif_pos hn]
        dsimp only
        rw [dif_pos hrange, hindex]
        unfold driverSetEndpoint driverAt
        dsimp only
        rw [hd']
        rfl
      · intro p d₀ hd₀
        rcases eq_or_ne p (dev.classDrivers k) with rfl | hne
        · exact ⟨_, Function.update_self _ _ _⟩
        · rw [Function.update_of_ne hne]
          exact hkeeps p d₀ hd₀

/-! ## Phases -/

/-- The invariant of all runs. -/
structure Phased (dev : Device) : Prop where
  initialized : dev.isInitialized = true ↔ dev.initializePhase = 4
  le : dev.initializePhase ≤ 4
  served : 3 ≤ dev.initializePhase → EndpointsServed dev
  present : DriversPresent dev

/-- The phase stays, or one of the three steps is made. -/
def PhaseAdvances (dev dev' : Device) : Prop :=
  dev'.initializePhase = dev.initializePhase ∨
    (1 ≤ dev.initializePhase ∧ dev.initializePhase ≤ 3 ∧
      dev'.initializePhase = dev.initializePhase + 1)

/-- Every driver is still there. -/
def KeepsDrivers (dev dev' : Device) : Prop :=
  ∀ p d, dev.drivers p = some d → ∃ d', dev'.drivers p = some d'

theorem keepsDrivers_of_eq {dev dev' : Device} (h : dev'.drivers = dev.drivers) :
    KeepsDrivers dev dev' := by
  intro p d hd
  rw [h]
  exact ⟨d, hd⟩

theorem keepsDrivers_update {dev dev' : Device} {p : Addr} {d : HidDriver}
    (h : dev'.drivers = Function.update dev.drivers p (some d)) : KeepsDrivers dev dev' := by
  intro q d₀ hd₀
  rw [h]
  rcases eq_or_ne q p with rfl | hne
  · exact ⟨d, Function.update_self _ _ _⟩
  · rw [Function.update_of_ne hne]
    exact ⟨d₀, hd₀⟩

/-- A device as its constructor leaves it satisfies the invariant: it is in phase 0 and has no
endpoints. -/
theorem Constructed.phased {dev : Device} (h : Constructed dev) : Phased dev where
  initialized := by
    rw [h.isInitialized, h.initializePhase]
    decide
  le := by
    rw [h.initializePhase]
    decide
  served := by
    intro hthree
    rw [h.initializePhase] at hthree
    exact absurd hthree (by decide)
  present := fun k hk => absurd (h.classDrivers k) hk

/-- A call that decides nothing about endpoints keeps the invariant, since it keeps the tables,
the drivers and the phase. -/
theorem Phased.keeps {dev dev' : Device} (h : Phased dev) (hkeeps : KeepsEndpoints dev dev')
    (hdrivers : KeepsDrivers dev dev') : Phased dev' := by
  constructor
  case initialized =>
    rw [hkeeps.isInitialized, hkeeps.initializePhase]
    exact h.initialized
  case le =>
    rw [hkeeps.initializePhase]
    exact h.le
  case served =>
    intro hthree
    rw [hkeeps.initializePhase] at hthree
    have hserved := h.served hthree
    constructor
    · rw [hkeeps.numEpConfigs]
      exact hserved.fits
    · rw [hkeeps.numEpConfigs, hkeeps.epConfigs, hkeeps.classDrivers]
      exact hserved.served
  case present =>
    intro k hk
    rw [hkeeps.classDrivers] at hk ⊢
    obtain ⟨d, hd⟩ := h.present k hk
    exact hdrivers _ d hd

/-- Before phase 3 nothing is asked of the tables, so a device in an earlier phase satisfies the
invariant whatever they hold. -/
theorem Phased.early {dev dev' : Device} (h : Phased dev) (hinit : dev'.isInitialized = false)
    (hphase : dev'.initializePhase ≤ 2) (hclass : dev'.classDrivers = dev.classDrivers)
    (hdrivers : dev'.drivers = dev.drivers) : Phased dev' := by
  constructor
  case initialized =>
    rw [hinit]
    exact ⟨fun hfalse => absurd hfalse Bool.false_ne_true, fun hfour => by omega⟩
  case le => omega
  case served =>
    intro hthree
    omega
  case present =>
    unfold DriversPresent
    rw [hclass, hdrivers]
    exact h.present

section Step

variable {dev dev' : Device} {err : Error}

/-- `StartInitialize` begins again. -/
theorem startInitialize_phased (h : Phased dev) (hcall : dev.startInitialize = .ok (err, dev')) :
    Phased dev' ∧ dev'.initializePhase = 1 := by
  unfold startInitialize at hcall
  have hkeeps := getDescriptor_keepsEndpoints hcall
  have hdrivers := getDescriptor_drivers hcall
  have hbegun : Phased { dev with isInitialized := false, initializePhase := 1 } :=
    h.early rfl (Nat.le_succ 1) rfl rfl
  exact ⟨hbegun.keeps hkeeps (keepsDrivers_of_eq hdrivers), hkeeps.initializePhase⟩

/-- `InitializePhase1` goes on to phase 2 and keeps the invariant, as nothing is asked of the
tables there. -/
theorem initializePhase1_phased {m : Dma} {buf : Addr} (h : Phased dev)
    (hinit : dev.isInitialized = false)
    (hcall : initializePhase1 m dev buf = .ok (err, dev')) :
    Phased dev' ∧ dev'.initializePhase = 2 := by
  obtain ⟨numConfigurations, hcall⟩ := initializePhase1_request hcall
  have hkeeps := getDescriptor_keepsEndpoints hcall
  have hdrivers := getDescriptor_drivers hcall
  have hbegun : Phased { dev with
      numConfigurations := numConfigurations
      configIndex := 0
      initializePhase := 2 } := h.early hinit (Nat.le_refl 2) rfl rfl
  exact ⟨hbegun.keeps hkeeps (keepsDrivers_of_eq hdrivers), hkeeps.initializePhase⟩

/-- `InitializePhase2` goes on to phase 3 if it finds an interface, with all its endpoints
served, and stays in its phase otherwise. -/
theorem initializePhase2_phased {m : Dma} {obs : DefaultObservers} {pool pool' : Usb.Pool}
    {buf : Addr} {len : Int} (h : Phased dev) (hinit : dev.isInitialized = false)
    (hlen : len ≤ (m.bytes buf).length)
    (hcall : initializePhase2 m obs dev pool buf len = .ok (err, dev', pool')) :
    Phased dev' ∧ (dev'.initializePhase = dev.initializePhase ∨ dev'.initializePhase = 3) := by
  rcases initializePhase2_cases hlen hcall with rfl | ⟨k, j, p, d, value, hp, -, hwalked, hset⟩
  · exact ⟨h, Or.inl rfl⟩
  · have hfound : Phased (configured dev p d (endpointConfigs (m.bytes buf) k j)) := by
      constructor
      case initialized =>
        change dev.isInitialized = true ↔ 3 = 4
        rw [hinit]
        decide
      case le => exact Nat.le_succ 3
      case served => exact fun _ => configured_served d hp hwalked
      case present =>
        intro i hi
        have hstill : KeepsDrivers dev (configured dev p d (endpointConfigs (m.bytes buf) k j)) :=
          keepsDrivers_update rfl
        unfold configured at hi ⊢
        dsimp only at hi ⊢
        split at hi
        · rename_i hany
          rw [if_pos hany]
          exact ⟨d, Function.update_self _ _ _⟩
        · rename_i hany
          rw [if_neg hany]
          obtain ⟨d₀, hd₀⟩ := h.present i hi
          exact hstill _ d₀ hd₀
    have hkeeps := setConfiguration_keepsEndpoints hset
    have hdrivers := setConfiguration_drivers hset
    exact ⟨hfound.keeps hkeeps (keepsDrivers_of_eq hdrivers), Or.inr hkeeps.initializePhase⟩

/-- **`InitializePhase3` calls no driver that is not there**: it returns success, with all
recorded endpoints passed on and the device in phase 4. -/
theorem initializePhase3_phased (h : Phased dev) (hphase : dev.initializePhase = 3) :
    ∃ dev', dev.initializePhase3 = .ok (.kSuccess, dev') ∧ Phased dev' ∧
      dev'.initializePhase = 4 := by
  have hserved := h.served (by omega)
  obtain ⟨drivers, hset, hstill⟩ :=
    setEndpoints_served h.present dev.numEpConfigs hserved.fits hserved.served
  refine ⟨{ dev with drivers := drivers, initializePhase := 4, isInitialized := true }, ?_, ?_, rfl⟩
  · unfold initializePhase3
    rw [hset]
    rfl
  · constructor
    case initialized => exact ⟨fun _ => rfl, fun _ => rfl⟩
    case le => exact Nat.le_refl 4
    case served => exact fun _ => ⟨hserved.fits, hserved.served⟩
    case present =>
      intro k hk
      obtain ⟨d, hd⟩ := h.present k hk
      exact hstill _ d hd

/-- The completion of a request of a driver. -/
theorem driverOnControlCompleted_keepsDrivers {p : Addr}
    (hcall : dev.driverOnControlCompleted p = .ok (err, dev')) : KeepsDrivers dev dev' := by
  obtain ⟨d, -, ⟨-, hcall⟩ | ⟨-, -, rfl⟩⟩ := driverOnControlCompleted_cases hcall
  · rcases interruptIn_cases hcall with rfl | ⟨i, tr, -, rfl⟩
    · exact keepsDrivers_update rfl
    · exact keepsDrivers_update rfl
  · exact keepsDrivers_of_eq rfl

/-- **Step lemma** for completions: the invariant is kept, and the phase stays or goes on by
one. -/
theorem onControlCompleted_phased {m : Dma} {obs : DefaultObservers} {pool pool' : Usb.Pool}
    {setupData : SetupData} {buf : Addr} {len : Int} (h : Phased dev)
    (hreceived : setupData.request = kGetDescriptor → (m.bytes buf).length = 256 ∧ len ≤ 256)
    (hcall : onControlCompleted m obs dev pool setupData buf len = .ok (err, dev', pool')) :
    Phased dev' ∧ PhaseAdvances dev dev' := by
  have hunchanged : Phased dev ∧ PhaseAdvances dev dev := ⟨h, Or.inl rfl⟩
  cases onControlCompleted_cases hcall with
  | driver _ _ hdriver =>
      have hkeeps := driverOnControlCompleted_keepsEndpoints hdriver
      exact ⟨h.keeps hkeeps (driverOnControlCompleted_keepsDrivers hdriver),
        Or.inl hkeeps.initializePhase⟩
  | noWaiter => exact hunchanged
  | initializing hinit hcall =>
      cases continueInitialize_cases hcall with
      | phase1 hphase hone =>
          obtain ⟨hphased, hnext⟩ := initializePhase1_phased h hinit hone
          refine ⟨hphased, Or.inr ⟨by omega, by omega, ?_⟩⟩
          rw [hphase]
          exact hnext
      | phase2 hphase hanswer htwo =>
          obtain ⟨hsize, hlen⟩ := hreceived (isDescriptor_eq_true hanswer).1
          obtain ⟨hphased, hnext⟩ := initializePhase2_phased h hinit (by omega) htwo
          exact ⟨hphased, hnext.imp id fun hthree => by omega⟩
      | phase3 hphase _ hthree =>
          obtain ⟨dev₂, hdone, hphased, hnext⟩ := initializePhase3_phased h hphase
          rw [hdone] at hthree
          cases hthree
          refine ⟨hphased, Or.inr ⟨by omega, by omega, ?_⟩⟩
          rw [hphase]
          exact hnext
      | refused => exact hunchanged

/-- **Step lemma.** -/
theorem Phased.step (h : Phased dev) (hcall : InitializeCall dev dev') : Phased dev' := by
  cases hcall with
  | startInitialize hcall => exact (startInitialize_phased h hcall).1
  | onControlCompleted hreceived hcall => exact (onControlCompleted_phased h hreceived hcall).1
  | derived => exact ⟨h.initialized, h.le, fun hthree => ⟨(h.served hthree).fits,
      (h.served hthree).served⟩, h.present⟩

end Step

/-- **The state machine of initialization**, in every state that a run reaches.  A
device is initialized in phase 4 and only there; the phase changes to 1 by
`StartInitialize` or by one step; a completion out of turn is an error and changes
nothing; from phase 3 on each endpoint that counts has a class driver, and
`InitializePhase3` comes to its end. -/
theorem initialization_phases {dev₀ dev : Device} (h₀ : Constructed dev₀)
    (hrun : ReflTransGen InitializeCall dev₀ dev) :
    (dev.isInitialized = true ↔ dev.initializePhase = 4) ∧
      (∀ err dev', dev.startInitialize = .ok (err, dev') → dev'.initializePhase = 1) ∧
      (∀ m obs pool setupData buf len err dev' pool',
        (setupData.request = kGetDescriptor → (m.bytes buf).length = 256 ∧ len ≤ 256) →
        onControlCompleted m obs dev pool setupData buf len = .ok (err, dev', pool') →
        PhaseAdvances dev dev') ∧
      (∀ m obs pool setupData buf len,
        (setupData.request = kGetDescriptor → buf ≠ nullptr ∧ (m.bytes buf).length = 256) →
        ¬ Matches m dev setupData buf →
        ∃ err, err ≠ .kSuccess ∧
          onControlCompleted m obs dev pool setupData buf len = .ok (err, dev, pool)) ∧
      (3 ≤ dev.initializePhase → EndpointsServed dev) ∧
      (dev.initializePhase = 3 → ∃ dev', dev.initializePhase3 = .ok (.kSuccess, dev')) := by
  have hphased : Phased dev := by
    induction hrun with
    | refl => exact h₀.phased
    | tail _ hcall ih => exact ih.step hcall
  refine ⟨hphased.initialized, ?_, ?_, ?_, hphased.served, ?_⟩
  · intro err dev' hcall
    exact (startInitialize_phased hphased hcall).2
  · intro m obs pool setupData buf len err dev' pool' hreceived hcall
    exact (onControlCompleted_phased hphased hreceived hcall).2
  · intro m obs pool setupData buf len hreceived hout
    exact onControlCompleted_unmatched hreceived hout
  · intro hphase
    obtain ⟨dev', hdone, -, -⟩ := initializePhase3_phased hphased hphase
    exact ⟨dev', hdone⟩

/-- The configuration of the boot mouse, in a buffer of 256 bytes. -/
def mouseReply : List (BitVec 8) :=
  (mouseConfiguration :: mouseDescriptors).flatten ++ List.replicate 222 0

/-- An answer of 256 bytes is a call. -/
theorem answer_call {dev dev' : Device} {setupData : SetupData} {bytes : List (BitVec 8)}
    (hsize : bytes.length = 256) (h : dev.answer setupData bytes = .ok dev') :
    InitializeCall dev dev' := by
  obtain ⟨⟨err, dev₁, pool'⟩, hcall, rfl⟩ := map_eq_ok h
  refine .onControlCompleted (fun _ => ⟨hsize, ?_⟩) hcall
  rw [hsize]
  exact Int.le_refl _

/-- The boot mouse gets to phase 3, with its endpoint served, and its class driver is called
there. -/
theorem initialization_phases_mouse : ∃ dev dev', dev.initializePhase = 3 ∧
    EndpointsServed dev ∧ dev.initializePhase3 = .ok (.kSuccess, dev') := by
  have hrun : returns (addressed.bind fun dev =>
      (dev.answer (getDescriptorData kDeviceDescriptor) (List.replicate 256 1)).bind fun dev =>
        dev.answer (getDescriptorData kConfigurationDescriptor) mouseReply)
      (fun dev => dev.initializePhase == 3) = true := by decide +kernel
  obtain ⟨dev, hdev, hthree⟩ := exists_of_returns hrun
  have hphase : dev.initializePhase = 3 := by simpa using hthree
  obtain ⟨dev₁, haddressed, hdev⟩ := bind_eq_ok.mp hdev
  obtain ⟨dev₂, hfirst, hsecond⟩ := bind_eq_ok.mp hdev
  unfold addressed at haddressed
  obtain ⟨⟨dev₀, pool₀⟩, haddress, haddressed⟩ := bind_eq_ok.mp haddressed
  obtain ⟨⟨err, dev₁'⟩, hstart, hsame⟩ := map_eq_ok haddressed
  obtain rfl : dev₁' = dev₁ := hsame
  have hkeeps := address_keepsEndpoints haddress
  have hconstructed : Constructed dev₀ := by
    refine ⟨hkeeps.isInitialized, hkeeps.initializePhase, fun k => ?_⟩
    rw [hkeeps.classDrivers]
    rfl
  have hcalls : ReflTransGen InitializeCall dev₀ dev :=
    ((ReflTransGen.single (.startInitialize hstart)).tail
      (answer_call List.length_replicate hfirst)).tail (answer_call (by decide +kernel) hsecond)
  obtain ⟨-, -, -, -, hserved, hlast⟩ := initialization_phases hconstructed hcalls
  obtain ⟨dev', hdone⟩ := hlast hphase
  exact ⟨dev, dev', hphase, hserved (Nat.le_of_eq hphase.symm), hdone⟩

end Mikanos.Xhci.Device
