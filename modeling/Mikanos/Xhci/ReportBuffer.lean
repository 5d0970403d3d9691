import Mikanos.Xhci.EndpointSlots
import Mikanos.Usb.InputRuns

/-!
# Who owns the report buffer

The Normal TRBs of a device all point at the `buf_` of its class driver.  Two
callbacks push one: `OnControlCompleted`, for a driver in phase 1, and
`OnInterruptCompleted`.  The second replaces the TRB it reports, so it is the
first that must not happen twice.  `OnEndpointsConfigured` puts the driver into
phase 1 once for each of its endpoints, and each time a `SET_PROTOCOL` is issued;
but it does so in one go, before the first TRB is pushed, and only the first
completion finds the driver in phase 1.

A driver in phase 1 is `Waiting`.  The invariant `Owned` says that a driver waits
only when nothing is outstanding, and that only `CompleteConfiguration` makes one
wait.
-/

namespace Mikanos.Xhci

open Relation Mikanos.Usb

namespace Device

/-! ## Calls that push no Normal TRB -/

/-- The class driver at `p` waits for the completion of `SET_PROTOCOL`. -/
def Waiting (dev : Device) (p : Addr) : Prop :=
  ∃ d, dev.drivers p = some d ∧ d.initializePhase = 1

/-- The doorbell has been rung `n` times at most for other pipes than the default
control pipe. -/
def RingsAtMost (n : Nat) (dev dev' : Device) : Prop :=
  ∃ values, dev'.doorbell = dev.doorbell ++ values ∧
    (values.filter fun target => target ≠ 1).length ≤ n

/-- Nothing but control transfers has been issued, and no driver has begun to wait. -/
structure Quiet (dev dev' : Device) : Prop where
  rings : RingsAtMost 0 dev dev'
  waiting : ∀ p, dev'.Waiting p → dev.Waiting p

/-- Who leaves the doorbell alone rings it zero times. -/
theorem RingsAtMost.of_eq {dev dev' : Device} (h : dev'.doorbell = dev.doorbell) :
    RingsAtMost 0 dev dev' :=
  ⟨[], h.trans (List.append_nil _).symm, Nat.le_refl 0⟩

/-- The rings of two calls add up. -/
theorem RingsAtMost.trans {n k : Nat} {a b c : Device} (hab : RingsAtMost n a b)
    (hbc : RingsAtMost k b c) : RingsAtMost (n + k) a c := by
  obtain ⟨values, hvalues, hn⟩ := hab
  obtain ⟨values', hvalues', hk⟩ := hbc
  refine ⟨values ++ values', ?_, ?_⟩
  · rw [hvalues', hvalues, List.append_assoc]
  · rw [List.filter_append, List.length_append]
    exact Nat.add_le_add hn hk

/-- Each TRB that is issued has a ring of the doorbell. -/
theorem RingsAtMost.issued_le {n : Nat} {dev dev' : Device} (h : RingsAtMost n dev dev') :
    (issued dev dev').length ≤ n := by
  obtain ⟨values, hvalues, hn⟩ := h
  rw [issued, rung_append hvalues]
  exact (List.length_filterMap_le _ _).trans hn

/-- A call that changes neither doorbell nor drivers is quiet. -/
theorem Quiet.of_eq {dev dev' : Device} (hdoorbell : dev'.doorbell = dev.doorbell)
    (hdrivers : dev'.drivers = dev.drivers) : Quiet dev dev' := by
  refine ⟨.of_eq hdoorbell, fun p hp => ?_⟩
  unfold Waiting at hp ⊢
  rw [hdrivers] at hp
  exact hp

theorem Quiet.trans {a b c : Device} (hab : Quiet a b) (hbc : Quiet b c) : Quiet a c :=
  ⟨hab.rings.trans hbc.rings, fun p hp => hab.waiting p (hbc.waiting p hp)⟩

/-- Who waits after a change of the driver at `p`: that driver if it is in its phase 1 now, and
the others that waited before. -/
theorem waiting_setDriver {dev : Device} {p q : Addr} {d : HidDriver}
    (h : (dev.setDriver p d).Waiting q) :
    (q = p ∧ d.initializePhase = 1) ∨ (q ≠ p ∧ dev.Waiting q) := by
  obtain ⟨d', hd', hphase⟩ := h
  rcases eq_or_ne q p with rfl | hne
  · change Function.update dev.drivers q (some d) q = some d' at hd'
    rw [Function.update_self] at hd'
    rw [← Option.some.inj hd'] at hphase
    exact Or.inl ⟨rfl, hphase⟩
  · change Function.update dev.drivers p (some d) q = some d' at hd'
    rw [Function.update_of_ne hne] at hd'
    exact Or.inr ⟨hne, d', hd', hphase⟩

/-- A change of a driver that does not make it wait. -/
theorem setDriver_quiet {dev : Device} {p : Addr} {d : HidDriver}
    (h : d.initializePhase = 1 → dev.Waiting p) : Quiet dev (dev.setDriver p d) := by
  refine ⟨.of_eq rfl, fun q hq => ?_⟩
  rcases waiting_setDriver hq with ⟨rfl, hphase⟩ | ⟨-, hold⟩
  · exact h hphase
  · exact hold

/-- A control transfer on the default control pipe rings for no other pipe, and makes no class
driver wait. -/
theorem controlTransfer_quiet {dev dev' : Device} {type : BitVec 2} {dirIn : Bool}
    {status : Trb} {setupData : SetupData} {buf : Addr} {len : Int} {issuer : Addr} {err : Error}
    (h : dev.controlTransfer type dirIn status kDefaultControlPipeID setupData buf len issuer =
      .ok (err, dev')) : Quiet dev dev' := by
  have hwaiter : Quiet dev (dev.addWaiter setupData issuer) := by
    obtain ⟨eventWaiters, hadd⟩ := addWaiter_fields dev setupData issuer
    rw [hadd]
    exact .of_eq rfl rfl
  unfold controlTransfer at h
  split at h
  · cases h
    exact hwaiter
  · obtain ⟨i, -, h⟩ := bind_eq_ok.mp h
    split at h
    · cases h
      exact hwaiter
    · obtain ⟨pushed, -, h⟩ := bind_eq_ok.mp h
      cases h
      exact hwaiter.trans ⟨⟨[1], rfl, by decide⟩, fun p hp => hp⟩

/-- `SET_CONFIGURATION` goes to the control pipe, whose doorbell does not count here. -/
theorem setConfiguration_quiet {dev dev' : Device} {value : BitVec 8} {err : Error}
    (h : dev.setConfiguration kDefaultControlPipeID value = .ok (err, dev')) : Quiet dev dev' :=
  controlTransfer_quiet h

/-- A request for a descriptor on the control pipe has nothing to do with reports: it rings for
no other pipe and makes no driver wait. -/
theorem getDescriptor_quiet {dev dev' : Device} {descType descIndex : BitVec 8} {buf : Addr}
    {len : Int} {err : Error}
    (h : dev.getDescriptor kDefaultControlPipeID descType descIndex buf len = .ok (err, dev')) :
    Quiet dev dev' :=
  controlTransfer_quiet h

/-- The loop of `InitializePhase3` tells the class drivers their endpoints; it rings no doorbell
and makes no driver wait. -/
theorem setEndpoints_quiet (n : Nat) : ∀ {dev dev' : Device},
    dev.setEndpoints n = .ok dev' → Quiet dev dev' := by
  induction n with
  | zero =>
      intro dev dev' h
      cases h
      exact .of_eq rfl rfl
  | succ n ih =>
      intro dev dev' h
      obtain ⟨dev₁, hn, k, d, hrest, -, hd, rfl⟩ := setEndpoints_succ h
      refine (ih hrest).trans (setDriver_quiet fun hphase => ⟨d, hd, ?_⟩)
      unfold hidSetEndpoint at hphase
      split at hphase
      · exact hphase
      · split at hphase
        · exact hphase
        · exact hphase

/-- The completions of a device that is not initialized use the default control pipe only, and
make no driver wait. -/
theorem continueInitialize_quiet {m : Dma} {obs : DefaultObservers} {dev dev' : Device}
    {pool pool' : Usb.Pool} {setupData : SetupData} {buf : Addr} {len : Int} {err : Error}
    (hlen : len ≤ (m.bytes buf).length)
    (h : continueInitialize m obs dev pool setupData buf len = .ok (err, dev', pool')) :
    Quiet dev dev' := by
  cases continueInitialize_cases h with
  | phase1 _ hone =>
      obtain ⟨numConfigurations, hone⟩ := initializePhase1_request hone
      have hfields : Quiet dev { dev with
          numConfigurations := numConfigurations
          configIndex := 0
          initializePhase := 2 } := .of_eq rfl rfl
      exact hfields.trans (getDescriptor_quiet hone)
  | phase2 _ _ htwo =>
      rcases initializePhase2_cases hlen htwo with
        rfl | ⟨k, j, p, d, value, -, ⟨kind, number, observers, rfl⟩, -, hset⟩
      · exact .of_eq rfl rfl
      · have hdriver : Quiet dev (dev.setDriver p (newHidDriver kind number observers)) :=
          setDriver_quiet fun hphase => absurd hphase (by decide : ¬ 0 = 1)
        have hfields : Quiet (dev.setDriver p (newHidDriver kind number observers))
            (configured dev p (newHidDriver kind number observers)
              (endpointConfigs (m.bytes buf) k j)) := .of_eq rfl rfl
        exact hdriver.trans (hfields.trans (setConfiguration_quiet hset))
  | phase3 _ _ hthree =>
      obtain ⟨drivers, hset, rfl⟩ := initializePhase3_fields hthree
      exact (setEndpoints_quiet _ hset).trans (.of_eq rfl rfl)
  | refused => exact .of_eq rfl rfl

/-- Decoding a Transfer Event. -/
theorem decodeTransferEvent_quiet (m : Dma) (dev : Device) (trb : Trb) :
    Quiet dev (decodeTransferEvent m dev trb).2 := by
  rcases decodeTransferEvent_cases m dev trb with hdecoded | hdecoded
  · rw [hdecoded]
    exact .of_eq rfl rfl
  · rw [hdecoded]
    exact .of_eq rfl rfl

/-! ## The endpoints of the class drivers -/

/-- That no driver uses the control pipe for its reports depends on the endpoints of the
drivers, so a step that keeps them keeps it. -/
theorem ControlPipeReserved.keeps {dev dev' : Device} (h : dev.ControlPipeReserved)
    (hkeeps : KeepsEndpoints dev dev') : dev'.ControlPipeReserved := by
  intro p d' hd'
  obtain ⟨d, hd, hep⟩ := hkeeps.drivers p d' hd'
  rw [hep]
  exact h p d hd

/-- A driver that does not use the default control pipe for its reports is put in place, and
that pipe stays reserved. -/
theorem ControlPipeReserved.setDriver {dev : Device} (h : dev.ControlPipeReserved) (p : Addr)
    {d : HidDriver} (hd : d.epInterruptIn.address ≠ 1) :
    (dev.setDriver p d).ControlPipeReserved := by
  intro q d' hd'
  rcases eq_or_ne q p with rfl | hne
  · change Function.update dev.drivers q (some d) q = some d' at hd'
    rw [Function.update_self] at hd'
    cases hd'
    exact hd
  · change Function.update dev.drivers p (some d) q = some d' at hd'
    rw [Function.update_of_ne hne] at hd'
    exact h q d' hd'

/-- `SetEndpoint` passes on endpoints that are not the default control pipe, so no driver gets
that pipe for its reports. -/
theorem setEndpoints_reserved {dev : Device} (hreserved : dev.ControlPipeReserved) (n : Nat)
    (hown : ∀ i : Fin 16, i.val < n → (dev.epConfigs i).epId.address ≠ 1) :
    ∀ {dev' : Device}, dev.setEndpoints n = .ok dev' → dev'.ControlPipeReserved := by
  induction n with
  | zero =>
      intro dev' h
      cases h
      exact hreserved
  | succ n ih =>
      intro dev' h
      obtain ⟨dev₁, hn, k, d, hrest, -, hd, rfl⟩ := setEndpoints_succ h
      have hreserved₁ := ih (fun i hi => hown i (Nat.lt_succ_of_lt hi)) hrest
      obtain ⟨drivers, rfl⟩ := setEndpoints_fields n hrest
      refine hreserved₁.setDriver _ ?_
      rcases hidSetEndpoint_epInterruptIn d (dev.epConfigs ⟨n, hn⟩) with ⟨-, hep⟩ | ⟨-, hep⟩
      · rw [hep]
        exact hown ⟨n, hn⟩ (Nat.lt_succ_self n)
      · rw [hep]
        exact hreserved₁ _ d hd

/-- The completions of a device that is not initialized give no driver the default control pipe,
as the endpoints of its configuration are others. -/
theorem continueInitialize_reserved {m : Dma} {obs : DefaultObservers} {dev dev' : Device}
    {pool pool' : Usb.Pool} {setupData : SetupData} {buf : Addr} {len : Int} {err : Error}
    (hstage : Stage KeepsToItsSlots dev) (hreserved : dev.ControlPipeReserved)
    (hlen : len ≤ (m.bytes buf).length)
    (h : continueInitialize m obs dev pool setupData buf len = .ok (err, dev', pool')) :
    dev'.ControlPipeReserved := by
  have hfrom : ∀ {dev₁ : Device}, dev₁.drivers = dev.drivers → dev₁.ControlPipeReserved := by
    intro dev₁ hdrivers p d hd
    rw [hdrivers] at hd
    exact hreserved p d hd
  cases continueInitialize_cases h with
  | phase1 _ hone =>
      obtain ⟨numConfigurations, hone⟩ := initializePhase1_request hone
      have hdrivers := getDescriptor_drivers hone
      exact hfrom hdrivers
  | phase2 _ _ htwo =>
      rcases initializePhase2_cases hlen htwo with
        rfl | ⟨k, j, p, d, value, -, ⟨kind, number, observers, rfl⟩, -, hset⟩
      · exact hreserved
      · intro q d' hd'
        rw [setConfiguration_drivers hset] at hd'
        have hzero : (newHidDriver kind number observers).epInterruptIn.address ≠ 1 := by
          change (0 : Int) ≠ 1
          decide
        exact hreserved.setDriver p hzero q d' hd'
  | phase3 hphase _ hthree =>
      obtain ⟨drivers, hset, rfl⟩ := initializePhase3_fields hthree
      have hown : ∀ i : Fin 16, i.val < dev.numEpConfigs → (dev.epConfigs i).epId.address ≠ 1 := by
        intro i hi
        cases hstage with
        | started hphase => omega
        | selected _ _ hsent htaken =>
            have hmem := List.mem_of_getElem? (htaken.configs i hi)
            have hdci := isOwnDci_address hmem ((hsent _ _ htaken.walked).1 _ hmem)
            unfold IsOwnDci at hdci
            omega
        | initialized hphase => omega
      have hreserved₂ := setEndpoints_reserved hreserved _ hown hset
      exact hreserved₂
  | refused => exact hreserved

/-! ## Calls that push one -/

/-- `InterruptIn` rings the doorbell once, or fails. -/
theorem interruptIn_rings {dev dev' : Device} {epId : EndpointID} {buf : Addr} {len : Int}
    {err : Error} (h : dev.interruptIn epId buf len = .ok (err, dev')) :
    RingsAtMost 1 dev dev' ∧ ∀ q, dev'.Waiting q → dev.Waiting q := by
  rcases interruptIn_cases h with rfl | ⟨i, tr, -, rfl⟩
  · exact ⟨⟨[], (List.append_nil _).symm, Nat.zero_le 1⟩, fun q hq => hq⟩
  · refine ⟨⟨[_], rfl, ?_⟩, fun q hq => hq⟩
    exact List.length_filter_le _ _

/-- `InterruptIn` on another pipe than the default control pipe fails and changes nothing, or
issues one TRB. -/
theorem interruptIn_issued {dev dev' : Device} {epId : EndpointID} {buf : Addr} {len : Int}
    {err : Error} (hep : epId.address ≠ 1) (h : dev.interruptIn epId buf len = .ok (err, dev')) :
    dev' = dev ∨ (issued dev dev').length = 1 := by
  unfold interruptIn at h
  obtain ⟨i, hi, h⟩ := bind_eq_ok.mp h
  have haddress := dciIndex_eq_ok hi
  have hown : i ≠ 0 := by
    rintro rfl
    exact hep haddress
  split at h
  · cases h
    exact Or.inl rfl
  · rename_i tr hring
    obtain ⟨⟨p, tr'⟩, -, h⟩ := bind_eq_ok.mp h
    cases h
    have hdoorbell : ((dev.setRing i (some tr')).ringDoorbell epId.address).doorbell =
        dev.doorbell ++ [BitVec.ofInt 8 ((i.val : Int) + 1)] := by
      rw [haddress]
      rfl
    rw [issued_one hown hring hdoorbell]
    exact Or.inr rfl

/-- The completion of a request of the driver at `p`: if it has been waiting, it does
not any more, and one TRB may have been pushed. -/
theorem driverOnControlCompleted_rings {dev dev' : Device} {p : Addr} {err : Error}
    (h : dev.driverOnControlCompleted p = .ok (err, dev')) :
    dev' = dev ∨ (dev.Waiting p ∧ RingsAtMost 1 dev dev' ∧
      ∀ q, dev'.Waiting q → dev.Waiting q ∧ q ≠ p) := by
  obtain ⟨d, hd, ⟨hphase, h⟩ | ⟨-, -, rfl⟩⟩ := driverOnControlCompleted_cases h
  · obtain ⟨hrings, hwaiting⟩ := interruptIn_rings h
    have hdriver : RingsAtMost 0 dev (dev.setDriver p { d with initializePhase := 2 }) :=
      .of_eq rfl
    refine Or.inr ⟨⟨d, hd, hphase⟩, hdriver.trans hrings, fun q hq => ?_⟩
    rcases waiting_setDriver (hwaiting q hq) with ⟨-, htwo⟩ | ⟨hne, hold⟩
    · exact absurd htwo (by decide : ¬ 2 = 1)
    · exact ⟨hold, hne⟩
  · exact Or.inl rfl

/-- The completion of an interrupt transfer issues one TRB at most, for the next report, and
makes no driver wait. -/
theorem onInterruptCompleted_rings {m : Dma} {dev dev' : Device} {epId : EndpointID}
    {buf : Addr} {len : Int} {err : Error}
    (h : onInterruptCompleted m dev epId buf len = .ok (err, dev')) :
    RingsAtMost 1 dev dev' ∧ ∀ q, dev'.Waiting q → dev.Waiting q := by
  have hnone : RingsAtMost 1 dev dev ∧ ∀ q, dev.Waiting q → dev.Waiting q :=
    ⟨⟨[], (List.append_nil _).symm, Nat.zero_le 1⟩, fun q hq => hq⟩
  unfold onInterruptCompleted at h
  split at h
  · dsimp only at h
    split at h
    · unfold driverOnInterruptCompleted at h
      obtain ⟨d, hd, h⟩ := bind_eq_ok.mp h
      split at h
      · obtain ⟨d₁, hreceived, h⟩ := bind_eq_ok.mp h
        obtain ⟨d₂, hkept, h⟩ := bind_eq_ok.mp h
        obtain ⟨notified, rfl⟩ := driverOnDataReceived_fields hreceived
        obtain ⟨previousBuf, rfl⟩ := keepReport_fields hkept
        obtain ⟨hrings, hwaiting⟩ := interruptIn_rings h
        generalize dev.classDrivers _ = p at hd hrings hwaiting
        have hdriver : Quiet dev (dev.setDriver p
            { d with notified := notified, previousBuf := previousBuf }) :=
          setDriver_quiet fun hphase => ⟨d, driverAt_eq_ok hd, hphase⟩
        exact ⟨hdriver.rings.trans hrings, fun q hq => hdriver.waiting q (hwaiting q hq)⟩
      · cases h
        exact hnone
    · cases h
      exact hnone
  · cases h

/-- What calls of `OnEndpointsConfigured` on class drivers change. -/
structure CallsDrivers (dev dev' : Device) : Prop where
  rings : RingsAtMost 0 dev dev'
  classDrivers : dev'.classDrivers = dev.classDrivers
  waiting : ∀ q, dev'.Waiting q → dev.Waiting q ∨ (q ≠ nullptr ∧ ∃ k, dev.classDrivers k = q)

theorem CallsDrivers.refl (dev : Device) : CallsDrivers dev dev :=
  ⟨.of_eq rfl, rfl, fun _ hq => Or.inl hq⟩

theorem CallsDrivers.trans {a b c : Device} (hab : CallsDrivers a b) (hbc : CallsDrivers b c) :
    CallsDrivers a c := by
  refine ⟨hab.rings.trans hbc.rings, hbc.classDrivers.trans hab.classDrivers, fun q hq => ?_⟩
  rcases hbc.waiting q hq with hold | hnew
  · exact hab.waiting q hold
  · rw [hab.classDrivers] at hnew
    exact Or.inr hnew

/-- One call of `OnEndpointsConfigured` on a class driver issues a control transfer and makes
that driver wait for its completion. -/
theorem driverOnEndpointsConfigured_callsDrivers {dev dev' : Device} {k : Fin 16} {err : Error}
    (hne : dev.classDrivers k ≠ nullptr)
    (h : dev.driverOnEndpointsConfigured (dev.classDrivers k) = .ok (err, dev')) :
    CallsDrivers dev dev' := by
  have hclass := (driverOnEndpointsConfigured_keepsEndpoints h).classDrivers
  unfold driverOnEndpointsConfigured at h
  obtain ⟨d, hd, h⟩ := bind_eq_ok.mp h
  have hquiet := controlTransfer_quiet h
  refine ⟨hquiet.rings, hclass, fun q hq => ?_⟩
  rcases waiting_setDriver (hquiet.waiting q hq) with ⟨rfl, -⟩ | ⟨-, hold⟩
  · exact Or.inr ⟨hne, k, rfl⟩
  · exact Or.inl hold

/-- The loop over the drivers lets each of them begin, in the order of the subscripts. -/
theorem onEndpointsConfiguredFrom_callsDrivers (left : Nat) {i : Nat} {dev dev' : Device}
    {err : Error} (h : dev.onEndpointsConfiguredFrom left i = .ok (err, dev')) :
    CallsDrivers dev dev' :=
  onEndpointsConfiguredFrom_induction CallsDrivers .refl .trans
    driverOnEndpointsConfigured_callsDrivers left h

/-! ## The owner of the buffer -/

/-- All class drivers of a device are one: every entry that is not null points to the driver of
the selected interface. -/
theorem Stage.oneDriver {Sent : List (BitVec 8) → Nat → Prop} {dev : Device}
    (h : Stage Sent dev) {i k : Fin 16} (hi : dev.classDrivers i ≠ nullptr)
    (hk : dev.classDrivers k ≠ nullptr) : dev.classDrivers i = dev.classDrivers k := by
  have hone : ∀ {b len k' j p}, TakenOver dev b len k' j p →
      ∀ i, dev.classDrivers i ≠ nullptr → dev.classDrivers i = p := by
    intro b len k' j p htaken i hne
    rw [htaken.classDrivers] at hne ⊢
    split at hne
    · rename_i hany
      rw [if_pos hany]
    · exact absurd rfl hne
  cases h with
  | started _ _ _ hclass => exact absurd (hclass i) hi
  | selected _ _ _ htaken => rw [hone htaken i hi, hone htaken k hk]
  | initialized _ _ _ htaken => rw [hone htaken i hi, hone htaken k hk]

/-- The invariant, about the device, the phase of its port and the Normal TRBs that
are outstanding. -/
structure Owned (dev : Device) (phase : ConfigPhase) (outstanding : List Addr) : Prop where
  stage : Stage KeepsToItsSlots dev
  waiters : WaitersServed dev
  atMost : outstanding.length ≤ 1
  armed : outstanding ≠ [] → phase = .kConfigured ∧ ∀ q, ¬ dev.Waiting q
  idle : phase ≠ .kConfigured → ∀ q, ¬ dev.Waiting q
  served : ∀ q, dev.Waiting q → q ≠ nullptr ∧ ∃ i, dev.classDrivers i = q
  unready : dev.isInitialized = false → phase = .kInitializingDevice
  reserved : dev.ControlPipeReserved
  underway : phase = .kInitializingDevice ∨ phase = .kConfiguringEndpoints ∨ phase = .kConfigured

section Owned

variable {dev dev' : Device} {phase : ConfigPhase} {outstanding outstanding' : List Addr}

/-- Nothing is outstanding before the port is configured. -/
theorem Owned.outstanding_nil (h : Owned dev phase outstanding) (hphase : phase ≠ .kConfigured) :
    outstanding = [] := by
  by_contra hne
  exact hphase (h.armed hne).1

/-- Calls that do not decide about endpoints, after which no more is outstanding and
no one waits who did not wait. -/
theorem Owned.keeps (h : Owned dev phase outstanding) (hkeeps : KeepsEndpoints dev dev')
    (hwaiting : ∀ q, dev'.Waiting q → dev.Waiting q)
    (hless : outstanding'.length ≤ outstanding.length) : Owned dev' phase outstanding' := by
  constructor
  case stage => exact h.stage.keeps hkeeps
  case waiters => exact h.waiters.keeps hkeeps
  case atMost => exact hless.trans h.atMost
  case armed =>
    intro hne
    have hsome : outstanding ≠ [] := by
      intro hnil
      rw [hnil] at hless
      exact hne (List.eq_nil_of_length_eq_zero (Nat.le_zero.mp hless))
    obtain ⟨hphase, hnone⟩ := h.armed hsome
    exact ⟨hphase, fun q hq => hnone q (hwaiting q hq)⟩
  case idle => exact fun hphase q hq => h.idle hphase q (hwaiting q hq)
  case served =>
    intro q hq
    rw [hkeeps.classDrivers]
    exact h.served q (hwaiting q hq)
  case unready =>
    intro hinit
    rw [hkeeps.isInitialized] at hinit
    exact h.unready hinit
  case reserved => exact h.reserved.keeps hkeeps
  case underway => exact h.underway

/-- A device that is not initialized goes on in the phase of its port, where nothing is
outstanding and no driver waits, and this stays so. -/
theorem Owned.early (h : Owned dev phase outstanding) (hinit : dev.isInitialized = false)
    (hstage : Stage KeepsToItsSlots dev' ∧ WaitersServed dev')
    (hwaiting : ∀ q, dev'.Waiting q → dev.Waiting q) (hreserved : dev'.ControlPipeReserved) :
    Owned dev' phase outstanding := by
  have hphase := h.unready hinit
  have hne : phase ≠ .kConfigured := by
    rw [hphase]
    decide
  have hnil := h.outstanding_nil hne
  have hnone : ∀ q, ¬ dev'.Waiting q := fun q hq => h.idle hne q (hwaiting q hq)
  constructor
  case stage => exact hstage.1
  case waiters => exact hstage.2
  case atMost => exact h.atMost
  case armed => exact fun hsome => absurd hnil hsome
  case idle => exact fun _ => hnone
  case served => exact fun q hq => absurd hq (hnone q)
  case unready => exact fun _ => hphase
  case reserved => exact hreserved
  case underway => exact h.underway

/-- **The first completion of `SET_PROTOCOL`** pushes a TRB where none is outstanding, and the
driver waits no longer, so it is the only one. -/
theorem Owned.arm (h : Owned dev phase outstanding) (hkeeps : KeepsEndpoints dev dev') {p : Addr}
    (hp : dev.Waiting p) (hwaiting : ∀ q, dev'.Waiting q → dev.Waiting q ∧ q ≠ p)
    {pushed : List Addr} (hpushed : pushed.length ≤ 1) :
    Owned dev' phase (outstanding ++ pushed) := by
  have hnil : outstanding = [] := by
    by_contra hne
    exact (h.armed hne).2 p hp
  have hphase : phase = .kConfigured := by
    by_contra hne
    exact h.idle hne p hp
  obtain ⟨hnull, i, hi⟩ := h.served p hp
  -- the driver that waits is the only one
  have hnone : ∀ q, ¬ dev'.Waiting q := by
    intro q hq
    obtain ⟨hold, hne⟩ := hwaiting q hq
    obtain ⟨hnull', k, hk⟩ := h.served q hold
    rw [← hi] at hnull
    rw [← hk] at hnull'
    exact hne (hk.symm.trans ((h.stage.oneDriver hnull' hnull).trans hi))
  rw [hnil, List.nil_append]
  constructor
  case stage => exact h.stage.keeps hkeeps
  case waiters => exact h.waiters.keeps hkeeps
  case atMost => exact hpushed
  case armed => exact fun _ => ⟨hphase, hnone⟩
  case idle => exact fun hne => absurd hphase hne
  case served => exact fun q hq => absurd hq (hnone q)
  case unready =>
    intro hinit
    rw [hkeeps.isInitialized] at hinit
    exact h.unready hinit
  case reserved => exact h.reserved.keeps hkeeps
  case underway => exact h.underway

/-- `ConfigureEndpoints` moves the port on and asks for no report, so who owns the buffers stays
as it was. -/
theorem Owned.configuring (h : Owned dev phase outstanding) (hinit : dev.isInitialized = true)
    (hphase : phase = .kInitializingDevice) : Owned dev .kConfiguringEndpoints outstanding := by
  have hne : phase ≠ .kConfigured := by
    rw [hphase]
    decide
  constructor
  case stage => exact h.stage
  case waiters => exact h.waiters
  case atMost => exact h.atMost
  case armed => exact fun hsome => absurd (h.outstanding_nil hne) hsome
  case idle => exact fun _ => h.idle hne
  case served => exact h.served
  case unready =>
    intro hnot
    rw [hinit] at hnot
    cases hnot
  case reserved => exact h.reserved
  case underway => exact Or.inr (Or.inl rfl)

/-- `CompleteConfiguration` makes class drivers wait while nothing is outstanding; their reports
are asked for later. -/
theorem Owned.complete (h : Owned dev phase outstanding)
    (hphase : phase = .kConfiguringEndpoints) {err : Error}
    (hcall : dev.onEndpointsConfigured = .ok (err, dev')) :
    Owned dev' .kConfigured (outstanding ++ issued dev dev') := by
  have hne : phase ≠ .kConfigured := by
    rw [hphase]
    decide
  have hnil := h.outstanding_nil hne
  have hkeeps := onEndpointsConfiguredFrom_keepsEndpoints 16 hcall
  obtain ⟨hrings, -, hwaiting⟩ := onEndpointsConfiguredFrom_callsDrivers 16 hcall
  have hissued := List.eq_nil_of_length_eq_zero (Nat.le_zero.mp hrings.issued_le)
  rw [hnil, hissued, List.nil_append]
  constructor
  case stage => exact h.stage.keeps hkeeps
  case waiters => exact h.waiters.keeps hkeeps
  case atMost => exact Nat.zero_le 1
  case armed => exact fun hsome => absurd rfl hsome
  case idle => exact fun hnot => absurd rfl hnot
  case served =>
    intro q hq
    rw [hkeeps.classDrivers]
    rcases hwaiting q hq with hold | hnew
    · exact absurd hold (h.idle hne q)
    · exact hnew
  case unready =>
    intro hinit
    rw [hkeeps.isInitialized] at hinit
    exact absurd (h.unready hinit) (by rw [hphase]; decide)
  case reserved => exact h.reserved.keeps hkeeps
  case underway => exact Or.inr (Or.inr rfl)

/-- What is known about the data of a control completion. -/
def Received (m : Dma) (dev : Device) : Completion → Prop
  | .control setupData buf len => len ≤ (m.bytes buf).length ∧
      (AnswersConfiguration m dev setupData buf → KeepsToItsSlots (m.bytes buf) len.toNat)
  | _ => True

/-- **A Transfer Event** keeps the invariant.  If it reports a Normal TRB, then that
is the one that was outstanding. -/
theorem Owned.event {m : Dma} {obs : DefaultObservers} {pool pool' : Usb.Pool} {trb : Trb}
    {err : Error} (h : Owned dev phase outstanding)
    (hown : (trbAt m dev trb.parameter).trbType = normalType → trb.parameter ∈ outstanding)
    (hreceived : Received m dev (decodeTransferEvent m dev trb).1)
    (hcall : onTransferEventReceived m obs dev pool trb = .ok (err, dev', pool')) :
    Owned dev' phase (outstanding.erase trb.parameter ++ issued dev dev') := by
  have hquiet := decodeTransferEvent_quiet m dev trb
  have hkeeps := decodeTransferEvent_keepsEndpoints m dev trb
  have herase : (outstanding.erase trb.parameter).length ≤ outstanding.length :=
    List.length_erase_le
  have hdecoded := h.keeps hkeeps hquiet.waiting herase
  -- a completion that issues nothing
  have hsilent : ∀ {dev₁ : Device}, RingsAtMost 0 (decodeTransferEvent m dev trb).2 dev₁ →
      Owned dev₁ phase (outstanding.erase trb.parameter) →
      Owned dev₁ phase (outstanding.erase trb.parameter ++ issued dev dev₁) := by
    intro dev₁ hrings hall
    have hnil := List.eq_nil_of_length_eq_zero
      (Nat.le_zero.mp (hquiet.rings.trans hrings).issued_le)
    rw [hnil, List.append_nil]
    exact hall
  unfold onTransferEventReceived at hcall
  dsimp only at hcall
  generalize hdecode : decodeTransferEvent m dev trb = decoded at *
  obtain ⟨completion, dev₀⟩ := decoded
  dsimp only at *
  cases completion with
  | failed err₁ =>
      cases hcall
      exact hsilent (.of_eq rfl) hdecoded
  | interrupt epId buf len =>
      obtain ⟨⟨err₁, dev₁⟩, hinterrupt, hcall⟩ := bind_eq_ok.mp hcall
      cases hcall
      obtain ⟨hnormal, -⟩ := decodeTransferEvent_interrupt hdecode
      have hmem := hown hnormal
      obtain ⟨hrings, hwaiting⟩ := onInterruptCompleted_rings hinterrupt
      have hissued := (hquiet.rings.trans hrings).issued_le
      have hlength : (outstanding.erase trb.parameter ++ issued dev dev').length ≤
          outstanding.length := by
        have hpos := List.length_pos_of_mem hmem
        rw [List.length_append, List.length_erase_of_mem hmem]
        omega
      exact h.keeps (hkeeps.trans (onInterruptCompleted_keepsEndpoints hinterrupt))
        (fun q hq => hquiet.waiting q (hwaiting q hq)) hlength
  | control setupData buf len =>
      obtain ⟨hlen, hsent⟩ := hreceived
      change onControlCompleted m obs dev₀ pool setupData buf len = _ at hcall
      cases onControlCompleted_cases hcall with
      | driver _ _ hdriver =>
          have hkeeps₁ := driverOnControlCompleted_keepsEndpoints hdriver
          rcases driverOnControlCompleted_rings hdriver with rfl | ⟨hp, hrings, hwaiting⟩
          · exact hsilent (.of_eq rfl) hdecoded
          · exact hdecoded.arm hkeeps₁ hp hwaiting (hquiet.rings.trans hrings).issued_le
      | noWaiter => exact hsilent (.of_eq rfl) hdecoded
      | initializing hinit hcall =>
          have hanswers : AnswersConfiguration m dev₀ setupData buf →
              KeepsToItsSlots (m.bytes buf) len.toNat := by
            intro hanswer
            obtain ⟨hinit', hphase, hrequest, hbyte⟩ := hanswer
            rw [hkeeps.isInitialized] at hinit'
            rw [hkeeps.initializePhase] at hphase
            exact hsent ⟨hinit', hphase, hrequest, hbyte⟩
          have hstage := continueInitialize_stage hdecoded.stage hdecoded.waiters hinit hlen
            hanswers hcall
          have hquiet₁ := continueInitialize_quiet hlen hcall
          have hreserved :=
            continueInitialize_reserved hdecoded.stage hdecoded.reserved hlen hcall
          exact hsilent hquiet₁.rings (hdecoded.early hinit hstage hquiet₁.waiting hreserved)

end Owned

end Device

end Mikanos.Xhci
