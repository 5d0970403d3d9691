import Mikanos.Xhci.ControlTransfers
import Mikanos.Xhci.PoolExhaustion
import Mikanos.Xhci.PortAddressing
import Mikanos.Xhci.ReportRuns

/-!
# Errors that nobody looks at

Below `ProcessEvent` the results of seven operations are thrown away.  `Called` says
which of them a call reaches on the first event of the ring, and what they return.
Most of them cannot fail there.  The others fail in five situations, and in each of
them `ProcessEvent` returns success or has no defined result: `Ignored` lists them by
the state before the call.

`OnDataReceived` and `SetEndpoint` return success in every class driver.
-/

namespace Mikanos.Xhci

open Relation Mikanos.Usb

namespace Device

variable {m : Dma} {dev dev' : Device} {pool pool' : Pool} {err : Error}

/-! ## Requests for a ring -/

/-- `AllocTransferRing` on `pool` reaches `Ring::Initialize`, which returns `err`. -/
def RingInitialized (pool : Pool) (err : Error) : Prop :=
  (pool.allocArray 32 1 64 4096).1 ≠ nullptr ∧
    (rawRing.initializeRing 32 (pool.allocArray 32 1 64 4096).2).1 = err

/-- There is memory for the object of a ring, but not for its TRBs. -/
def RingCutOff (pool : Pool) : Prop :=
  pool.Serves (ringRequests.take 1) ∧ ¬ pool.Serves ringRequests

instance (pool : Pool) : Decidable (RingCutOff pool) := inferInstanceAs (Decidable (_ ∧ _))

theorem useBlock_error (r : Ring) (n : Nat) (block : Addr × Pool) :
    (r.useBlock n block).1 = if block.1 = nullptr then .kNoEnoughMemory else .kSuccess := by
  unfold Ring.useBlock
  dsimp only
  split
  · rfl
  · rfl

/-- The first of two requests is served, and the second is not. -/
theorem serves_one_iff (pool : Pool) (object buffer : MemRequest) :
    pool.Serves [object] ∧ ¬ pool.Serves [object, buffer] ↔
      (pool.serve object).1 ≠ nullptr ∧ ((pool.serve object).2.serve buffer).1 = nullptr := by
  simp only [Pool.Serves, and_true, not_and, not_not, ne_eq]
  exact ⟨fun h => ⟨h.1, h.2 h.1⟩, fun h => ⟨h.1, fun _ => h.2⟩⟩

/-- **`Ring::Initialize` fails** if and only if there is memory for the ring object and none for
its TRBs, which is where it is called. -/
theorem ringInitialized_error_iff {pool : Pool} :
    (∃ err, RingInitialized pool err ∧ err ≠ .kSuccess) ↔ RingCutOff pool := by
  have hresult : (rawRing.initializeRing 32 (pool.allocArray 32 1 64 4096).2).1 =
      if ((pool.allocArray 32 1 64 4096).2.allocArray 16 (BitVec.ofNat 64 32) 64
        (64 * 1024)).1 = nullptr then .kNoEnoughMemory else .kSuccess := by
    rw [Ring.initializeRing, useBlock_error]
  have hserves : RingCutOff pool ↔ (pool.allocArray 32 1 64 4096).1 ≠ nullptr ∧
      ((pool.allocArray 32 1 64 4096).2.allocArray 16 (BitVec.ofNat 64 32) 64
        (64 * 1024)).1 = nullptr := by
    rw [Pool.allocArray_eq_serve, Pool.allocArray_eq_serve]
    exact serves_one_iff pool _ _
  rw [hserves]
  unfold RingInitialized
  rw [hresult]
  constructor
  · rintro ⟨err, ⟨hobject, rfl⟩, herr⟩
    by_cases hnull : ((pool.allocArray 32 1 64 4096).2.allocArray 16 (BitVec.ofNat 64 32) 64
        (64 * 1024)).1 = nullptr
    · exact ⟨hobject, hnull⟩
    · rw [if_neg hnull] at herr
      exact absurd rfl herr
  · rintro ⟨hobject, hnull⟩
    exact ⟨.kNoEnoughMemory, ⟨hobject, by rw [if_pos hnull]⟩, by decide⟩

/-! ## The default control pipe -/

section DefaultPipe

variable {type : BitVec 2} {dirIn : Bool} {status : Trb} {setupData : SetupData} {buf : Addr}
  {len : Int} {issuer : Addr}

theorem addWaiter_transferRings (dev : Device) (setupData : SetupData) (issuer : Addr) :
    (dev.addWaiter setupData issuer).transferRings = dev.transferRings := by
  obtain ⟨eventWaiters, hadd⟩ := addWaiter_fields dev setupData issuer
  rw [hadd]

/-- Without a ring a control transfer fails. -/
theorem controlTransfer_ringless (h : dev.transferRings 0 = none) :
    dev.controlTransfer type dirIn status kDefaultControlPipeID setupData buf len issuer =
      .ok (.kTransferRingNotSet, dev.addWaiter setupData issuer) := by
  have hnumber : ¬ (kDefaultControlPipeID.number < 0 ∨ 15 < kDefaultControlPipeID.number) := by
    decide
  have hdci : dciIndex kDefaultControlPipeID.address = .ok 0 := rfl
  rw [← addWaiter_transferRings dev setupData issuer] at h
  simp only [controlTransfer, if_neg hnumber, hdci, bind, bind_ok, h]
  rfl

/-- With a ring a control transfer on the control pipe does not fail, and the ring is still
there after it. -/
theorem controlTransfer_success (h : dev.transferRings 0 ≠ none)
    (hcall : dev.controlTransfer type dirIn status kDefaultControlPipeID setupData buf len issuer =
      .ok (err, dev')) : err = .kSuccess ∧ dev'.transferRings 0 ≠ none := by
  rw [← addWaiter_transferRings dev setupData issuer] at h
  unfold controlTransfer at hcall
  split at hcall
  · rename_i hnumber
    exact absurd hnumber (by decide)
  · obtain ⟨i, hi, hcall⟩ := bind_eq_ok.mp hcall
    obtain rfl : (0 : Fin 31) = i := Except.ok.inj hi
    split at hcall
    · rename_i hnone
      exact absurd hnone h
    · obtain ⟨pushed, -, hcall⟩ := bind_eq_ok.mp hcall
      cases hcall
      refine ⟨rfl, ?_⟩
      rw [noteTransfer_ring]
      exact Option.some_ne_none _

end DefaultPipe

/-- **`StartInitialize` fails** if and only if the device has no control ring, as its one
request goes there. -/
theorem startInitialize_error_iff :
    (∃ err dev', dev.startInitialize = .ok (err, dev') ∧ err ≠ .kSuccess) ↔
      dev.transferRings 0 = none := by
  unfold startInitialize getDescriptor controlIn
  dsimp only
  constructor
  · rintro ⟨err, dev', hcall, herr⟩
    by_contra hring
    exact herr (controlTransfer_success (by exact hring) hcall).1
  · intro hring
    exact ⟨_, _, controlTransfer_ringless hring, by decide⟩

/-- From subscript `i` on, `OnEndpointsConfigured` calls a class driver that is there. -/
def CallsDriver (dev : Device) (i : Nat) : Prop :=
  ∃ k : Fin 16, i ≤ k.val ∧ (∀ j : Fin 16, i ≤ j.val → j.val < k.val →
    dev.classDrivers j = nullptr) ∧ dev.classDrivers k ≠ nullptr ∧
      dev.drivers (dev.classDrivers k) ≠ none

instance (dev : Device) (i : Nat) : Decidable (CallsDriver dev i) :=
  inferInstanceAs (Decidable (∃ _, _))

/-- At an entry that is not null the loop calls a class driver, if there is one at that address.
-/
theorem callsDriver_of_ne {i : Nat} {hi : i < 16} (hne : dev.classDrivers ⟨i, hi⟩ ≠ nullptr) :
    CallsDriver dev i ↔ dev.drivers (dev.classDrivers ⟨i, hi⟩) ≠ none := by
  constructor
  · rintro ⟨k, hle, hbefore, -, hdriver⟩
    rcases Nat.lt_or_eq_of_le hle with hlt | heq
    · exact absurd (hbefore ⟨i, hi⟩ (Nat.le_refl i) hlt) hne
    · obtain rfl : (⟨i, hi⟩ : Fin 16) = k := Fin.ext heq
      exact hdriver
  · intro hdriver
    refine ⟨⟨i, hi⟩, Nat.le_refl i, fun j hle hlt => ?_, hne, hdriver⟩
    exact absurd hle (Nat.not_le.mpr hlt)

/-- At a null pointer the loop goes on, so whether it calls a driver depends on the entries
behind. -/
theorem callsDriver_of_eq {i : Nat} {hi : i < 16} (hnull : dev.classDrivers ⟨i, hi⟩ = nullptr) :
    CallsDriver dev i ↔ CallsDriver dev (i + 1) := by
  constructor
  · rintro ⟨k, hle, hbefore, hne, hdriver⟩
    rcases Nat.lt_or_eq_of_le hle with hlt | heq
    · exact ⟨k, hlt, fun j hj => hbefore j (Nat.le_of_succ_le hj), hne, hdriver⟩
    · obtain rfl : (⟨i, hi⟩ : Fin 16) = k := Fin.ext heq
      exact absurd hnull hne
  · rintro ⟨k, hle, hbefore, hne, hdriver⟩
    refine ⟨k, Nat.le_of_succ_le hle, fun j hj hlt => ?_, hne, hdriver⟩
    rcases Nat.lt_or_eq_of_le hj with hgt | heq
    · exact hbefore j hgt hlt
    · obtain rfl : (⟨i, hi⟩ : Fin 16) = j := Fin.ext heq
      exact hnull

/-- The loop of `OnEndpointsConfigured` fails at the first class driver or not at all: only a
missing control ring can make a call fail. -/
theorem onEndpointsConfiguredFrom_error_iff (left : Nat) : ∀ {i : Nat} {dev : Device},
    i + left = 16 →
    ((∃ err dev', dev.onEndpointsConfiguredFrom left i = .ok (err, dev') ∧ err ≠ .kSuccess) ↔
      dev.transferRings 0 = none ∧ CallsDriver dev i) := by
  induction left with
  | zero =>
      intro i dev hi
      constructor
      · rintro ⟨err, dev', hcall, herr⟩
        cases hcall
        exact absurd rfl herr
      · rintro ⟨-, k, hle, -⟩
        omega
  | succ left ih =>
      intro i dev hleft
      have hi : i < 16 := by omega
      rw [onEndpointsConfiguredFrom, dif_pos hi]
      dsimp only
      by_cases hnull : dev.classDrivers ⟨i, hi⟩ = nullptr
      · rw [if_neg (not_not.mpr hnull), ih (by omega), callsDriver_of_eq hnull]
      · rw [if_pos hnull, callsDriver_of_ne hnull]
        constructor
        · rintro ⟨err, dev', hcall, herr⟩
          obtain ⟨⟨err₁, dev₁⟩, hdriver, hcall⟩ := bind_eq_ok.mp hcall
          unfold driverOnEndpointsConfigured at hdriver
          obtain ⟨d, hd, hdriver⟩ := bind_eq_ok.mp hdriver
          have hpresent : dev.drivers (dev.classDrivers ⟨i, hi⟩) ≠ none := by
            rw [driverAt_eq_ok hd]
            exact Option.some_ne_none d
          refine ⟨?_, hpresent⟩
          -- With a ring this driver succeeds, and so do the others.
          by_contra hring
          obtain ⟨rfl, hring₁⟩ := controlTransfer_success (by exact hring) hdriver
          rw [if_neg (not_not.mpr rfl)] at hcall
          exact hring₁ ((ih (by omega)).mp ⟨err, dev', hcall, herr⟩).1
        · rintro ⟨hring, hdriver⟩
          obtain ⟨d, hd⟩ := Option.ne_none_iff_exists'.mp hdriver
          have hat := driverAt_of_drivers hd
          have hcall := @controlTransfer_ringless
            (dev.setDriver (dev.classDrivers ⟨i, hi⟩) { d with initializePhase := 1 })
            kOutDataStage false (statusDirection statusStageTRB)
            (setProtocolData d.interfaceIndex) nullptr 0 (dev.classDrivers ⟨i, hi⟩) hring
          generalize (dev.setDriver _ _).addWaiter _ _ = dev' at hcall
          refine ⟨.kTransferRingNotSet, dev', ?_, by decide⟩
          simp only [driverOnEndpointsConfigured, controlOut, hat, hcall, bind, bind_ok]
          rfl

/-- **`OnEndpointsConfigured` fails** if and only if there is a class driver to call,
and no control ring. -/
theorem onEndpointsConfigured_error_iff :
    (∃ err dev', dev.onEndpointsConfigured = .ok (err, dev') ∧ err ≠ .kSuccess) ↔
      dev.transferRings 0 = none ∧ CallsDriver dev 0 :=
  onEndpointsConfiguredFrom_error_iff 16 rfl

/-! ## The rings of the endpoints -/

/-- The pool after the requests for `n` rings. -/
def afterRings (pool : Pool) (n : Nat) : Pool :=
  pool.serveAll ((List.range n).flatMap fun _ => ringRequests)

/-- The loop of `ConfigureEndpoints` comes to the endpoint number `n`. -/
def ReachesEndpoint (dev : Device) (pool : Pool) (n : Nat) : Prop :=
  ∀ j, j < n → dev.HasRing j = true ∧ (afterRings pool j).Serves (ringRequests.take 1)

/-- The loop of `ConfigureEndpoints` gives an endpoint a ring without TRBs. -/
def EndpointCutOff (dev : Device) (pool : Pool) : Prop :=
  ∃ k, k < dev.numEpConfigs ∧ dev.ReachesEndpoint pool k ∧ dev.HasRing k = true ∧
    RingCutOff (afterRings pool k)

/-- The loop of `ConfigureEndpoints` calls `Ring::Initialize`, which returns `err`. -/
def InitializesRing (portSpeed : BitVec 4) (dev : Device) (pool : Pool) (err : Error) : Prop :=
  ∃ k, ∃ hk : k < 16, ∃ dev' pool' i, k < dev.numEpConfigs ∧
    configureEndpointLoop portSpeed dev pool k = .ok (dev', pool') ∧
    dciIndex (dev'.epConfigs ⟨k, hk⟩).epId.address = .ok i ∧ RingInitialized pool' err

/-- An endpoint has a ring to use if its DCI is one of the subscripts of `transfer_rings_`. -/
theorem hasRing_iff {n : Nat} (hn : n < 16) :
    dev.HasRing n = true ↔ ∃ i, dciIndex (dev.epConfigs ⟨n, hn⟩).epId.address = .ok i := by
  unfold HasRing dciIndex
  rw [dif_pos hn]
  dsimp only
  constructor
  · intro h
    exact ⟨_, dif_pos (of_decide_eq_true h)⟩
  · rintro ⟨i, hi⟩
    split at hi
    · rename_i h
      exact decide_eq_true h
    · cases hi

theorem hasRing_lt {n : Nat} (h : dev.HasRing n = true) : n < 16 := by
  unfold HasRing at h
  split at h
  · assumption
  · cases h

/-- `AllocTransferRing` returns a ring if and only if there is memory for its object; the memory
of the TRBs is not looked at. -/
theorem allocTransferRing_ne_none_iff {i : Fin 31} {pool : Pool} :
    (dev.allocTransferRing i 32 pool).1 ≠ none ↔ pool.Serves (ringRequests.take 1) := by
  have hserves : pool.Serves (ringRequests.take 1) ↔
      (pool.allocArray 32 1 64 4096).1 ≠ nullptr := by
    rw [Pool.allocArray_eq_serve]
    exact ⟨fun h => h.1, fun h => ⟨h, trivial⟩⟩
  rw [hserves]
  generalize hplaced : placeRing 32 (pool.allocArray 32 1 64 4096) = placed
  rw [fst_of_eq (allocTransferRing_placed hplaced)]
  constructor
  · rintro hplace hnull
    rw [placeRing_of_eq hnull] at hplaced
    exact hplace (fst_of_eq hplaced.symm)
  · intro hobject hplace
    rw [placeRing_of_ne hobject] at hplaced
    rw [← hplaced] at hplace
    cases hplace

/-- An iteration with a ring returns. -/
theorem useEndpointRing_returns {i : Fin 31} (conf : EndpointConfig) (portSpeed : BitVec 4)
    {result : Option Ring × Device × Pool} (h : result.1 ≠ none) :
    ∃ dev' pool', useEndpointRing i conf portSpeed result = .ok (dev', pool') := by
  obtain ⟨tr, dev, pool⟩ := result
  cases tr with
  | none => exact absurd rfl h
  | some tr => exact ⟨_, _, rfl⟩

/-- **The loop of `ConfigureEndpoints`** over the first `n` endpoints returns if and only
if it reaches the next one. -/
theorem configureEndpointLoop_returns_iff {portSpeed : BitVec 4} {pool : Pool} (n : Nat) :
    (∃ dev' pool', configureEndpointLoop portSpeed dev pool n = .ok (dev', pool')) ↔
      dev.ReachesEndpoint pool n := by
  induction n with
  | zero => exact ⟨fun _ j hj => absurd hj (Nat.not_lt_zero j), fun _ => ⟨dev, pool, rfl⟩⟩
  | succ n ih =>
      have hsplit : dev.ReachesEndpoint pool (n + 1) ↔ dev.ReachesEndpoint pool n ∧
          dev.HasRing n = true ∧ (afterRings pool n).Serves (ringRequests.take 1) := by
        constructor
        · exact fun h => ⟨fun j hj => h j (Nat.lt_succ_of_lt hj), h n (Nat.lt_succ_self n)⟩
        · rintro ⟨hbefore, hn⟩ j hj
          rcases Nat.lt_succ_iff_lt_or_eq.mp hj with hlt | rfl
          · exact hbefore j hlt
          · exact hn
      rw [hsplit, ← ih]
      constructor
      · rintro ⟨dev', pool', h⟩
        obtain ⟨dev₁, pool₁, hn, i, hrest, hi, h⟩ := configureEndpointLoop_succ h
        obtain ⟨hconfigs, -, hpool⟩ := configureEndpointLoop_requests n hrest
        rw [hconfigs] at hi
        have hobject := @allocTransferRing_ne_none_iff (dev₁.enableInputEndpoint i) i pool₁
        generalize (dev₁.enableInputEndpoint i).allocTransferRing i 32 pool₁ = result at h hobject
        have hserves := hobject.mp (useEndpointRing_requests h).1
        rw [hpool] at hserves
        exact ⟨⟨dev₁, pool₁, hrest⟩, (hasRing_iff hn).mpr ⟨i, hi⟩, hserves⟩
      · rintro ⟨⟨dev₁, pool₁, hrest⟩, hring, hobject⟩
        obtain ⟨hconfigs, -, hpool⟩ := configureEndpointLoop_requests n hrest
        have hn := hasRing_lt hring
        obtain ⟨i, hi⟩ := (hasRing_iff hn).mp hring
        rw [← hconfigs] at hi
        have hsome := (@allocTransferRing_ne_none_iff (dev₁.enableInputEndpoint i) i
          (afterRings pool n)).mpr hobject
        unfold afterRings at hsome
        rw [← hpool] at hsome
        obtain ⟨dev', pool', huse⟩ :=
          useEndpointRing_returns (dev₁.epConfigs ⟨n, hn⟩) portSpeed hsome
        refine ⟨dev', pool', ?_⟩
        unfold configureEndpointLoop
        refine bind_eq_ok.mpr ⟨(dev₁, pool₁), hrest, ?_⟩
        dsimp only
        rw [dif_pos hn]
        exact bind_eq_ok.mpr ⟨i, hi, huse⟩

/-- **A ring of an endpoint is not initialized** if and only if one is cut off, with memory for
its object and none for its TRBs. -/
theorem initializesRing_error_iff {portSpeed : BitVec 4} {pool : Pool} :
    (∃ err, InitializesRing portSpeed dev pool err ∧ err ≠ .kSuccess) ↔
      dev.EndpointCutOff pool := by
  constructor
  · rintro ⟨err, ⟨k, hk, dev', pool', i, hlt, hloop, hi, hring⟩, herr⟩
    obtain ⟨hconfigs, -, hpool⟩ := configureEndpointLoop_requests k hloop
    rw [hconfigs] at hi
    have hcut := ringInitialized_error_iff.mp ⟨err, hring, herr⟩
    rw [hpool] at hcut
    exact ⟨k, hlt, (configureEndpointLoop_returns_iff k).mp ⟨dev', pool', hloop⟩,
      (hasRing_iff hk).mpr ⟨i, hi⟩, hcut⟩
  · rintro ⟨k, hlt, hreaches, hhas, hcut⟩
    obtain ⟨dev', pool', hloop⟩ := (configureEndpointLoop_returns_iff k).mpr hreaches
    obtain ⟨hconfigs, -, hpool⟩ := configureEndpointLoop_requests k hloop
    have hk := hasRing_lt hhas
    obtain ⟨i, hi⟩ := (hasRing_iff hk).mp hhas
    rw [← hconfigs] at hi
    obtain ⟨err, hring, herr⟩ := ringInitialized_error_iff.mpr hcut
    unfold afterRings at hring
    rw [← hpool] at hring
    exact ⟨err, ⟨k, hk, dev', pool', i, hlt, hloop, hi, hring⟩, herr⟩

/-! ## The transfer that completes the initialization -/

/-- `InitializePhase2` never completes the initialization: it leaves `is_initialized_` as it is.
-/
theorem initializePhase2_isInitialized {obs : DefaultObservers} {buf : Addr} {len : Int}
    (h : initializePhase2 m obs dev pool buf len = .ok (err, dev', pool')) :
    dev'.isInitialized = dev.isInitialized := by
  unfold initializePhase2 at h
  obtain ⟨type, -, h⟩ := bind_eq_ok.mp h
  split at h
  · cases h
    rfl
  · generalize loopFuelOf len = fuel at h
    obtain ⟨⟨p, dev₁, pool₁⟩, hloop, h⟩ := bind_eq_ok.mp h
    rw [← (interfaceLoop_filledIn fuel hloop).isInitialized]
    rcases selectConfiguration_cases h with ⟨-, rfl⟩ | ⟨-, value, hset⟩
    · rfl
    · exact (setConfiguration_keepsEndpoints hset).isInitialized

/-- The endpoints and the pool, as `ConfigureEndpoints` finds them. -/
structure KeepsRequests (dev : Device) (pool : Pool) (dev' : Device) (pool' : Pool) : Prop where
  pool : pool' = pool
  epConfigs : dev'.epConfigs = dev.epConfigs
  numEpConfigs : dev'.numEpConfigs = dev.numEpConfigs

theorem KeepsEndpoints.requests (h : KeepsEndpoints dev dev') (pool : Pool) :
    KeepsRequests dev pool dev' pool := ⟨rfl, h.epConfigs, h.numEpConfigs⟩

/-- The completion that initializes a device takes nothing from the pool and keeps the endpoints
that will ask for rings. -/
theorem continueInitialize_requests {obs : DefaultObservers} {setupData : SetupData} {buf : Addr}
    {len : Int} (hnot : dev.isInitialized = false)
    (h : continueInitialize m obs dev pool setupData buf len = .ok (err, dev', pool'))
    (hinit : dev'.isInitialized = true) : KeepsRequests dev pool dev' pool' := by
  have hsame : dev'.isInitialized = dev.isInitialized → KeepsRequests dev pool dev' pool' := by
    intro heq
    rw [hinit, hnot] at heq
    cases heq
  cases continueInitialize_cases h with
  | phase1 _ hone =>
      obtain ⟨numConfigurations, hone⟩ := initializePhase1_request hone
      exact hsame (getDescriptor_keepsEndpoints hone).isInitialized
  | phase2 _ _ htwo => exact hsame (initializePhase2_isInitialized htwo)
  | phase3 _ _ hthree =>
      obtain ⟨drivers, -, rfl⟩ := initializePhase3_fields hthree
      exact ⟨rfl, rfl, rfl⟩
  | refused => exact hsame rfl

/-- **A transfer that leaves an initialized device** has changed neither the pool nor
the endpoints. -/
theorem onTransferEventReceived_requests {obs : DefaultObservers} {trb : Trb}
    (h : onTransferEventReceived m obs dev pool trb = .ok (err, dev', pool'))
    (hinit : dev'.isInitialized = true) : KeepsRequests dev pool dev' pool' := by
  unfold onTransferEventReceived at h
  have hdecode := decodeTransferEvent_keepsEndpoints m dev trb
  generalize decodeTransferEvent m dev trb = decoded at h hdecode
  obtain ⟨completion, dev₀⟩ := decoded
  have hfrom : KeepsRequests dev₀ pool dev' pool' → KeepsRequests dev pool dev' pool' :=
    fun hkeeps => ⟨hkeeps.pool, hkeeps.epConfigs.trans hdecode.epConfigs,
      hkeeps.numEpConfigs.trans hdecode.numEpConfigs⟩
  refine hfrom ?_
  cases completion with
  | failed err =>
      cases h
      exact (KeepsEndpoints.refl _).requests _
  | interrupt epId buf len =>
      obtain ⟨⟨err₁, dev₁⟩, hcomplete, h⟩ := bind_eq_ok.mp h
      cases h
      exact (onInterruptCompleted_keepsEndpoints hcomplete).requests _
  | control setupData buf len =>
      change onControlCompleted m obs dev₀ pool setupData buf len = _ at h
      cases onControlCompleted_cases h with
      | driver _ _ hdriver => exact (driverOnControlCompleted_keepsEndpoints hdriver).requests _
      | noWaiter => exact (KeepsEndpoints.refl _).requests _
      | initializing hnot hcall => exact continueInitialize_requests hnot hcall hinit

end Device

namespace Controller

/-! ## What is called -/

/-- The operations whose results are thrown away below `ProcessEvent`. -/
inductive Operation where
  | allocDevice
  | loadDCBAA
  | initializeRing
  | startInitialize
  | onEndpointsConfigured
  | setEndpoint
  | onDataReceived
  deriving DecidableEq

/-- The calls of `AddressDevice`, and what they return. -/
inductive AddressCalls (env : Surroundings) (c : Controller) (portId slotId : BitVec 8) :
    Operation → Error → Prop
  | allocDevice {err : Error} {devmgr : DeviceManager} {pool : Pool}
      (halloc : c.devmgr.allocDevice slotId c.pool = .ok (err, devmgr, pool)) :
      AddressCalls env c portId slotId .allocDevice err
  | initializeRing {err₀ err : Error} {devmgr : DeviceManager} {pool : Pool} {dev : Device}
      (halloc : c.devmgr.allocDevice slotId c.pool = .ok (err₀, devmgr, pool))
      (hdev : devmgr.findBySlot slotId = some dev)
      (hring : Device.RingInitialized pool err) :
      AddressCalls env c portId slotId .initializeRing err
  | loadDCBAA {err₀ err : Error} {devmgr devmgr' : DeviceManager} {pool pool' : Pool}
      {dev dev' : Device}
      (halloc : c.devmgr.allocDevice slotId c.pool = .ok (err₀, devmgr, pool))
      (hdev : devmgr.findBySlot slotId = some dev)
      (huse : Device.useControlRing ((dev.prepareAddress portId
        (env.portsc portId 0).portSpeed).allocTransferRing 0 32 pool) = .ok (dev', pool'))
      (hload : (devmgr.setDevice slotId dev').loadDCBAA slotId = .ok (err, devmgr')) :
      AddressCalls env c portId slotId .loadDCBAA err

/-- The speed that `ConfigureEndpoints` finds is one it knows. -/
def KnownSpeed (portSpeed : BitVec 4) : Prop := ¬ (portSpeed = 0 ∨ 5 < portSpeed.toNat)

instance (portSpeed : BitVec 4) : Decidable (KnownSpeed portSpeed) :=
  inferInstanceAs (Decidable (¬ _))

/-- The calls that a Transfer Event for `dev` leads to, and what they return. -/
inductive TransferCalls (env : Surroundings) (c : Controller) (trb : Trb) (dev : Device) :
    Operation → Error → Prop
  | onDataReceived {epId : EndpointID} {buf p : Addr} {len : Int} {dev₀ : Device} {d d' : HidDriver}
      {k : Fin 16}
      (hdecode : Device.decodeTransferEvent env.dma dev trb = (.interrupt epId buf len, dev₀))
      (hnum : epId.number = k.val) (hp : p = dev₀.classDrivers k) (hne : p ≠ nullptr)
      (hdriver : dev₀.driverAt p = .ok d) (hin : epId.isIn = true)
      (hreceived : Device.driverOnDataReceived env.dma p d = .ok d') :
      TransferCalls env c trb dev .onDataReceived .kSuccess
  | setEndpoint {setupData : SetupData} {buf : Addr} {len : Int} {dev₀ dev₁ dev₂ : Device}
      {n k : Fin 16} {err : Error}
      (hdecode : Device.decodeTransferEvent env.dma dev trb = (.control setupData buf len, dev₀))
      (hinit : dev₀.isInitialized = false) (hphase : dev₀.initializePhase = 3)
      (hrequest : setupData.request = kSetConfiguration) (hn : n.val < dev₀.numEpConfigs)
      (hloop : dev₀.setEndpoints n.val = .ok dev₁)
      (hnum : (dev₁.epConfigs n).epId.number = k.val)
      (hset : dev₁.driverSetEndpoint (dev₁.classDrivers k) (dev₁.epConfigs n) = .ok (err, dev₂)) :
      TransferCalls env c trb dev .setEndpoint err
  | initializeRing {dev₁ : Device} {pool₁ : Pool} {err : Error}
      (hcall : Device.onTransferEventReceived env.dma env.observers dev c.pool trb =
        .ok (.kSuccess, dev₁, pool₁))
      (hinit : dev₁.isInitialized = true)
      (hphase : c.portConfigPhase dev₁.slotContext.rootHubPortNum = .kInitializingDevice)
      (hspeed : KnownSpeed (env.portsc dev₁.slotContext.rootHubPortNum 0).portSpeed)
      (hring : Device.InitializesRing (env.portsc dev₁.slotContext.rootHubPortNum 0).portSpeed
        dev₁.prepareEndpoints pool₁ err) :
      TransferCalls env c trb dev .initializeRing err

/-- While `ProcessEvent` handles `trb`, the operation is called and returns `err`. -/
inductive Called (env : Surroundings) (c : Controller) (trb : Trb) : Operation → Error → Prop
  | enabled {op : Operation} {err : Error} (htype : trb.trbType = commandCompletionEventType)
      (hissuer : (trbAt env c trb.pointer60).trbType = enableSlotCommandType)
      (hphase : c.portConfigPhase c.addressingPort = .kEnablingSlot)
      (hcalls : AddressCalls env c c.addressingPort (eventSlotId trb) op err) :
      Called env c trb op err
  | addressed {dev dev₁ dev' : Device} {c₁ : Controller} {err : Error}
      (htype : trb.trbType = commandCompletionEventType)
      (hissuer : (trbAt env c trb.pointer60).trbType = addressDeviceCommandType)
      (hdev : c.devmgr.findBySlot (eventSlotId trb) = some dev)
      (hport : dev.slotContext.rootHubPortNum = c.addressingPort)
      (hphase : c.portConfigPhase c.addressingPort = .kAddressingDevice)
      (hhand : handOver env { c with addressingPort := 0 } = .ok (.kSuccess, c₁))
      (hfound : c₁.devmgr.findBySlot (eventSlotId trb) = some dev₁)
      (hstart : dev₁.startInitialize = .ok (err, dev')) :
      Called env c trb .startInitialize err
  | configured {dev dev' : Device} {err : Error}
      (htype : trb.trbType = commandCompletionEventType)
      (hissuer : (trbAt env c trb.pointer60).trbType = configureEndpointCommandType)
      (hdev : c.devmgr.findBySlot (eventSlotId trb) = some dev)
      (hphase : c.portConfigPhase dev.slotContext.rootHubPortNum = .kConfiguringEndpoints)
      (hconfigured : dev.onEndpointsConfigured = .ok (err, dev')) :
      Called env c trb .onEndpointsConfigured err
  | transfer {dev : Device} {op : Operation} {err : Error}
      (htype : trb.trbType = transferEventType)
      (hdev : c.devmgr.findBySlot (Device.eventSlotId trb) = some dev)
      (hcalls : TransferCalls env c trb dev op err) :
      Called env c trb op err

/-- `ProcessEvent` returns an error, and no port has gone on. -/
def Told (env : Surroundings) (c : Controller) : Prop :=
  ∃ err c', processEvent env c = .ok (err, c') ∧ err ≠ .kSuccess ∧
    ∀ p, c'.portConfigPhase p ≤ c.portConfigPhase p

/-- `ProcessEvent` leaves the device in a slot and the phases of the ports alone. -/
def SlotUntouched (env : Surroundings) (c : Controller) (slotId : BitVec 8) (dev : Device) : Prop :=
  ∃ err c', processEvent env c = .ok (err, c') ∧ c'.devmgr.findBySlot slotId = some dev ∧
    c'.portConfigPhase = c.portConfigPhase

/-- No error is swallowed: if a call below `ProcessEvent` fails, then `ProcessEvent`
fails and no port goes on.  A slot that is in use is not enabled again. -/
def SwallowsNothing (env : Surroundings) (c : Controller) : Prop :=
  ∀ trb, c.er.hasFront = .ok true → c.er.front = .ok trb →
    (∀ op err, Called env c trb op err → err ≠ .kSuccess → Told env c) ∧
    ∀ dev, trb.trbType = commandCompletionEventType →
      (trbAt env c trb.pointer60).trbType = enableSlotCommandType →
      c.devmgr.findBySlot (eventSlotId trb) = some dev → SlotUntouched env c (eventSlotId trb) dev

/-! ## What is ignored -/

/-- The reset of the port that `addressing_port` is handed over to ends. -/
def HandOverEnds (env : Surroundings) (c : Controller) : Prop :=
  ∀ port, c.firstWaiting = some port → (env.portsc port 0).currentConnectStatus = true →
    env.resetEnds port = true

/-- The transfer is completed without an error, and the device is initialized then. -/
def Completes (env : Surroundings) (dev : Device) (pool : Pool) (trb : Trb) : Prop :=
  ∃ dev' pool', Device.onTransferEventReceived env.dma env.observers dev pool trb =
    .ok (.kSuccess, dev', pool') ∧ dev'.isInitialized = true

/-- The events on which an error is ignored. -/
inductive Ignored (env : Surroundings) (c : Controller) (trb : Trb) : Prop
  /-- A slot was enabled that is in use. -/
  | used {dev : Device} (htype : trb.trbType = commandCompletionEventType)
      (hissuer : (trbAt env c trb.pointer60).trbType = enableSlotCommandType)
      (hphase : c.portConfigPhase c.addressingPort = .kEnablingSlot)
      (hdev : c.devmgr.findBySlot (eventSlotId trb) = some dev)
  /-- There is memory for the device and for the object of its control ring, but not
  for the TRBs of the ring. -/
  | addressCutOff (htype : trb.trbType = commandCompletionEventType)
      (hissuer : (trbAt env c trb.pointer60).trbType = enableSlotCommandType)
      (hphase : c.portConfigPhase c.addressingPort = .kEnablingSlot)
      (hslot : (eventSlotId trb).toNat ≤ c.devmgr.maxSlots)
      (hfree : c.devmgr.devices (eventSlotId trb).toNat = none)
      (hserves : c.pool.Serves [deviceRequest])
      (hcut : Device.RingCutOff (c.pool.serve deviceRequest).2)
  /-- A device without a control ring has its address. -/
  | addressedRingless {dev : Device} (htype : trb.trbType = commandCompletionEventType)
      (hissuer : (trbAt env c trb.pointer60).trbType = addressDeviceCommandType)
      (hdev : c.devmgr.findBySlot (eventSlotId trb) = some dev)
      (hport : dev.slotContext.rootHubPortNum = c.addressingPort)
      (hphase : c.portConfigPhase c.addressingPort = .kAddressingDevice)
      (hends : HandOverEnds env c) (hring : dev.transferRings 0 = none)
  /-- The endpoints of a device without a control ring are configured, and it has a
  class driver. -/
  | configuredRingless {dev : Device} (htype : trb.trbType = commandCompletionEventType)
      (hissuer : (trbAt env c trb.pointer60).trbType = configureEndpointCommandType)
      (hdev : c.devmgr.findBySlot (eventSlotId trb) = some dev)
      (hphase : c.portConfigPhase dev.slotContext.rootHubPortNum = .kConfiguringEndpoints)
      (hring : dev.transferRings 0 = none) (hdriver : dev.CallsDriver 0)
  /-- The last transfer of the initialization is completed, and there is memory for the
  object of a ring of an endpoint, but not for its TRBs. -/
  | endpointCutOff {dev : Device} (htype : trb.trbType = transferEventType)
      (hdev : c.devmgr.findBySlot (Device.eventSlotId trb) = some dev)
      (hcompletes : Completes env dev c.pool trb)
      (hphase : c.portConfigPhase dev.slotContext.rootHubPortNum = .kInitializingDevice)
      (hspeed : KnownSpeed (env.portsc dev.slotContext.rootHubPortNum 0).portSpeed)
      (hcut : dev.EndpointCutOff c.pool)

section Handling

variable {env : Surroundings} {c c' : Controller} {trb : Trb} {op : Operation} {err : Error}
  {dev : Device}

/-! ## The event in front -/

theorem processEvent_of_onEvent (hhas : c.er.hasFront = .ok true) (hfront : c.er.front = .ok trb)
    (h : onEvent env trb c = .ok (err, c')) :
    processEvent env c = .ok (err, { c' with er := c.er.pop }) := by
  unfold processEvent EventRing.processEvent
  simp only [hhas, hfront, h, bind, bind_ok]
  rfl

/-- A handler that only succeeds tells nothing. -/
theorem not_told (hhas : c.er.hasFront = .ok true) (hfront : c.er.front = .ok trb)
    (h : ∀ {err c'}, onEvent env trb c = .ok (err, c') → err = .kSuccess) : ¬ Told env c := by
  rintro ⟨err, c', hcall, herr, -⟩
  rcases processEvent_cases hcall with ⟨hnone, -, -⟩ | ⟨trb', c₁, -, hfront', hevent, -⟩
  · rw [hhas] at hnone
    cases hnone
  · obtain rfl : trb = trb' := Except.ok.inj (hfront.symm.trans hfront')
    exact herr (h hevent)

/-- The completion of an Address Device command. -/
theorem onEvent_addressed (htype : trb.trbType = commandCompletionEventType)
    (hissuer : (trbAt env c trb.pointer60).trbType = addressDeviceCommandType) :
    onEvent env trb c = onAddressDeviceCompleted env (eventSlotId trb) c := by
  rw [onEvent_command htype]
  unfold onCommandCompletionEvent
  dsimp only
  rw [if_neg (by rw [hissuer]; decide), if_pos hissuer]

/-- The hand-over of `addressing_port` returns if and only if the reset it starts ends, if it
starts one. -/
theorem handOver_returns_iff :
    (∃ c₁, handOver env { c with addressingPort := 0 } = .ok (.kSuccess, c₁)) ↔
      HandOverEnds env c := by
  constructor
  · rintro ⟨c₁, h⟩ port hfirst hconnected
    by_contra hends
    unfold handOver at h
    rw [show firstWaiting { c with addressingPort := 0 } = some port from hfirst] at h
    unfold resetPort resetPortRegister at h
    dsimp only at h
    rw [if_neg (not_not.mpr hconnected), if_neg (not_not.mpr rfl)] at h
    split at h
    · cases h
    · cases h
  · intro hends
    unfold handOver
    cases hfirst : firstWaiting { c with addressingPort := 0 } with
    | none => exact ⟨_, rfl⟩
    | some port =>
        have hphase : c.portConfigPhase port = .kWaitingAddressed :=
          (firstWaiting_eq_some hfirst).1
        unfold resetPort resetPortRegister
        dsimp only
        by_cases hconnected : (env.portsc port 0).currentConnectStatus = true
        · rw [if_neg (not_not.mpr hconnected), if_neg (not_not.mpr rfl),
            if_neg (fun h => h.2 hphase), if_pos (hends port hfirst hconnected)]
          exact ⟨_, rfl⟩
        · rw [if_pos hconnected]
          exact ⟨_, rfl⟩

/-- The hand-over does not touch the devices. -/
theorem handOver_devmgr {c₁ : Controller}
    (h : handOver env { c with addressingPort := 0 } = .ok (err, c₁)) : c₁.devmgr = c.devmgr := by
  obtain ⟨-, hnext⟩ := handOver_cases (by rfl) h
  rcases hnext with ⟨-, rfl⟩ | ⟨port, -, -, rfl⟩ | ⟨port, -, -, rfl⟩
  · rfl
  · rfl
  · rfl

/-! ## Enable Slot -/

/-- `AllocDevice` on a free slot succeeds if the pool has room for the device; without it the
call does not return, as the object is built at null. -/
theorem allocDevice_free {d d' : DeviceManager} {slotId : BitVec 8} {pool pool' : Pool}
    (hslot : slotId.toNat ≤ d.maxSlots) (hfree : d.devices slotId.toNat = none) :
    d.allocDevice slotId pool = .ok (err, d', pool') ↔
      err = .kSuccess ∧ pool.Serves [deviceRequest] ∧ pool' = (pool.serve deviceRequest).2 ∧
        d' = d.setDevice slotId (Device.new (pool.serve deviceRequest).1 slotId) := by
  unfold DeviceManager.allocDevice
  rw [if_neg (Nat.not_lt.mpr hslot), if_neg (by rw [hfree]; exact Bool.false_ne_true),
    allocArray_deviceRequest]
  have hserves : pool.Serves [deviceRequest] ↔ (pool.serve deviceRequest).1 ≠ nullptr :=
    ⟨fun h => h.1, fun h => ⟨h, trivial⟩⟩
  rw [hserves]
  generalize pool.serve deviceRequest = block
  unfold DeviceManager.placeDevice
  constructor
  · intro h
    split at h
    · cases h
    · rename_i hne
      cases h
      exact ⟨rfl, hne, rfl, rfl⟩
  · rintro ⟨rfl, hne, rfl, rfl⟩
    rw [if_neg hne]

/-- `LoadDCBAA` on a slot that exists. -/
theorem loadDCBAA_success {d d' : DeviceManager} {slotId : BitVec 8}
    (hslot : slotId.toNat ≤ d.maxSlots)
    (h : (d.setDevice slotId dev).loadDCBAA slotId = .ok (err, d')) : err = .kSuccess := by
  unfold DeviceManager.loadDCBAA at h
  rw [DeviceManager.maxSlots_setDevice, if_neg (Nat.not_lt.mpr hslot)] at h
  split at h
  · cases h
  · cases h
    rfl

/-- A slot whose device is found is in use. -/
theorem findBySlot_used {d : DeviceManager} {slotId : BitVec 8}
    (h : d.findBySlot slotId = some dev) :
    slotId.toNat ≤ d.maxSlots ∧ (d.devices slotId.toNat).isSome = true := by
  obtain ⟨hslot, hdev⟩ := DeviceManager.findBySlot_eq_some h
  rw [hdev]
  exact ⟨hslot, rfl⟩

/-- Why a call of `AddressDevice` fails: the slot does not exist, is in use, or its device gets
a control ring without TRBs. -/
theorem addressCalls_error {portId slotId : BitVec 8}
    (h : AddressCalls env c portId slotId op err) (herr : err ≠ .kSuccess) :
    c.devmgr.maxSlots < slotId.toNat ∨ (∃ dev, c.devmgr.findBySlot slotId = some dev) ∨
      slotId.toNat ≤ c.devmgr.maxSlots ∧ c.devmgr.devices slotId.toNat = none ∧
        c.pool.Serves [deviceRequest] ∧ Device.RingCutOff (c.pool.serve deviceRequest).2 := by
  rcases Nat.lt_or_ge c.devmgr.maxSlots slotId.toNat with hslot | hslot
  · exact Or.inl hslot
  · refine Or.inr ?_
    cases hfree : c.devmgr.devices slotId.toNat with
    | some dev =>
        rw [← DeviceManager.findBySlot_of_le hslot] at hfree
        exact Or.inl ⟨dev, hfree⟩
    | none =>
        refine Or.inr ⟨hslot, rfl, ?_⟩
        cases h with
        | allocDevice halloc => exact absurd ((allocDevice_free hslot hfree).mp halloc).1 herr
        | initializeRing halloc hdev hring =>
            obtain ⟨-, hserves, hpool, -⟩ := (allocDevice_free hslot hfree).mp halloc
            have hcut := Device.ringInitialized_error_iff.mp ⟨err, hring, herr⟩
            rw [hpool] at hcut
            exact ⟨hserves, hcut⟩
        | loadDCBAA halloc hdev huse hload =>
            exact absurd (loadDCBAA_success (DeviceManager.findBySlot_eq_some hdev).1 hload) herr

/-- `AddressDevice` tells that a slot does not exist. -/
theorem addressDevice_noSlot {portId slotId : BitVec 8} (h : c.devmgr.maxSlots < slotId.toNat) :
    addressDevice env c portId slotId = .ok (.kInvalidSlotID, c) := by
  have hnone : c.devmgr.findBySlot slotId = none := if_pos h
  have halloc : c.devmgr.allocDevice slotId c.pool = .ok (.kInvalidSlotID, c.devmgr, c.pool) :=
    if_pos h
  simp only [addressDevice, halloc, hnone, bind, bind_ok]
  rfl

/-! ## Which errors there are -/

/-- The device that `TransferCalls` goes on with has the slot context of the one before the
event, and a ring of it would be cut off exactly if one was before. -/
theorem transfer_kept {dev₁ : Device} {pool₁ : Pool}
    (hcall : Device.onTransferEventReceived env.dma env.observers dev c.pool trb =
      .ok (err, dev₁, pool₁)) (hinit : dev₁.isInitialized = true) :
    dev₁.slotContext = dev.slotContext ∧
      (dev₁.prepareEndpoints.EndpointCutOff pool₁ ↔ dev.EndpointCutOff c.pool) := by
  obtain ⟨hpool, hconfigs, hnum⟩ := Device.onTransferEventReceived_requests hcall hinit
  refine ⟨(Device.onTransferEventReceived_keepsSlot hcall).slotContext, ?_⟩
  have hring : ∀ j, dev₁.prepareEndpoints.HasRing j = dev.HasRing j := by
    intro j
    unfold Device.HasRing
    rw [show dev₁.prepareEndpoints.epConfigs = dev.epConfigs from hconfigs]
  unfold Device.EndpointCutOff Device.ReachesEndpoint
  rw [hpool, show dev₁.prepareEndpoints.numEpConfigs = dev.numEpConfigs from hnum]
  simp only [hring]

/-- **An error below `ProcessEvent`** is one that is ignored, or the slot that was
enabled does not exist. -/
theorem called_error (h : Called env c trb op err) (herr : err ≠ .kSuccess) :
    Ignored env c trb ∨ trb.trbType = commandCompletionEventType ∧
      (trbAt env c trb.pointer60).trbType = enableSlotCommandType ∧
      c.portConfigPhase c.addressingPort = .kEnablingSlot ∧
      c.devmgr.maxSlots < (eventSlotId trb).toNat := by
  cases h with
  | enabled htype hissuer hphase hcalls =>
      rcases addressCalls_error hcalls herr with hslot | ⟨dev, hdev⟩ | ⟨hslot, hfree, hserves, hcut⟩
      · exact Or.inr ⟨htype, hissuer, hphase, hslot⟩
      · exact Or.inl (.used htype hissuer hphase hdev)
      · exact Or.inl (.addressCutOff htype hissuer hphase hslot hfree hserves hcut)
  | @addressed dev dev₁ _ _ _ htype hissuer hdev hport hphase hhand hfound hstart =>
      obtain rfl : dev = dev₁ := by
        rw [handOver_devmgr hhand, hdev] at hfound
        exact Option.some.inj hfound
      exact Or.inl (.addressedRingless htype hissuer hdev hport hphase
        (handOver_returns_iff.mp ⟨_, hhand⟩)
        (Device.startInitialize_error_iff.mp ⟨_, _, hstart, herr⟩))
  | configured htype hissuer hdev hphase hconfigured =>
      obtain ⟨hring, hdriver⟩ := Device.onEndpointsConfigured_error_iff.mp ⟨_, _, hconfigured, herr⟩
      exact Or.inl (.configuredRingless htype hissuer hdev hphase hring hdriver)
  | transfer htype hdev hcalls =>
      cases hcalls with
      | onDataReceived => exact absurd rfl herr
      | setEndpoint _ _ _ _ _ _ _ hset =>
          unfold Device.driverSetEndpoint at hset
          obtain ⟨d, -, hset⟩ := bind_eq_ok.mp hset
          cases hset
          exact absurd rfl herr
      | initializeRing hcall hinit hphase hspeed hring =>
          obtain ⟨hcontext, hcut⟩ := transfer_kept hcall hinit
          rw [hcontext] at hphase hspeed
          exact Or.inl (.endpointCutOff htype hdev ⟨_, _, hcall, hinit⟩ hphase hspeed
            (hcut.mp (Device.initializesRing_error_iff.mp ⟨err, hring, herr⟩)))

/-- **Something fails** on each of the events that are listed: one of the called operations
returns an error. -/
theorem Ignored.called (h : Ignored env c trb) :
    ∃ op err, Called env c trb op err ∧ err ≠ .kSuccess := by
  cases h with
  | used htype hissuer hphase hdev =>
      obtain ⟨hslot, hused⟩ := findBySlot_used hdev
      have halloc : c.devmgr.allocDevice (eventSlotId trb) c.pool =
          .ok (.kAlreadyAllocated, c.devmgr, c.pool) := by
        unfold DeviceManager.allocDevice
        rw [if_neg (Nat.not_lt.mpr hslot), if_pos hused]
      exact ⟨_, _, .enabled htype hissuer hphase (.allocDevice halloc), by decide⟩
  | addressCutOff htype hissuer hphase hslot hfree hserves hcut =>
      obtain ⟨err, hring, herr⟩ := Device.ringInitialized_error_iff.mpr hcut
      have halloc := (allocDevice_free hslot hfree).mpr ⟨rfl, hserves, rfl, rfl⟩
      have hfound := DeviceManager.findBySlot_setDevice
        (Device.new (c.pool.serve deviceRequest).1 (eventSlotId trb)) hslot
      exact ⟨_, err, .enabled htype hissuer hphase (.initializeRing halloc hfound hring), herr⟩
  | addressedRingless htype hissuer hdev hport hphase hends hring =>
      obtain ⟨c₁, hhand⟩ := handOver_returns_iff.mpr hends
      obtain ⟨err, dev', hstart, herr⟩ := Device.startInitialize_error_iff.mpr hring
      refine ⟨_, err, .addressed htype hissuer hdev hport hphase hhand ?_ hstart, herr⟩
      rw [handOver_devmgr hhand]
      exact hdev
  | configuredRingless htype hissuer hdev hphase hring hdriver =>
      obtain ⟨err, dev', hconfigured, herr⟩ :=
        Device.onEndpointsConfigured_error_iff.mpr ⟨hring, hdriver⟩
      exact ⟨_, err, .configured htype hissuer hdev hphase hconfigured, herr⟩
  | endpointCutOff htype hdev hcompletes hphase hspeed hcut =>
      obtain ⟨dev', pool', hcall, hinit⟩ := hcompletes
      obtain ⟨hcontext, hcut'⟩ := transfer_kept hcall hinit
      obtain ⟨err, hring, herr⟩ := Device.initializesRing_error_iff.mpr (hcut'.mpr hcut)
      rw [← hcontext] at hphase hspeed
      exact ⟨_, err, .transfer htype hdev (.initializeRing hcall hinit hphase hspeed hring), herr⟩

theorem configureEndpoints_success {slotId : BitVec 8}
    (hspeed : KnownSpeed (env.portsc dev.slotContext.rootHubPortNum 0).portSpeed)
    (h : configureEndpoints env c slotId dev = .ok (err, c')) : err = .kSuccess := by
  rcases configureEndpoints_parts h with ⟨hunknown, -, -⟩ | ⟨-, hsuccess, -⟩
  · exact absurd hunknown hspeed
  · exact hsuccess

/-- **Nothing is told** on any of them: the handler returns success, if it returns, one case for
each kind of event. -/
theorem Ignored.succeeds (h : Ignored env c trb) (hcall : onEvent env trb c = .ok (err, c')) :
    err = .kSuccess := by
  cases h with
  | used htype hissuer hphase hdev =>
      rw [onEvent_enabled htype hissuer hphase] at hcall
      rcases addressDevice_cases hcall with ⟨hslot, -, -⟩ | ⟨-, hsuccess, -⟩
      · exact absurd hslot (Nat.not_lt.mpr (findBySlot_used hdev).1)
      · exact hsuccess
  | addressCutOff htype hissuer hphase hslot hfree hserves hcut =>
      rw [onEvent_enabled htype hissuer hphase] at hcall
      rcases addressDevice_cases hcall with ⟨hnone, -, -⟩ | ⟨-, hsuccess, -⟩
      · exact absurd hnone (Nat.not_lt.mpr hslot)
      · exact hsuccess
  | addressedRingless htype hissuer hdev hport hphase hends hring =>
      rw [onEvent_addressed htype hissuer] at hcall
      rcases onAddressDeviceCompleted_cases hcall with ⟨-, -, hrefused⟩ | ⟨hsuccess, -⟩
      · exact absurd ⟨_, hdev, hport, hphase⟩ hrefused
      · exact hsuccess
  | configuredRingless htype hissuer hdev hphase hring hdriver =>
      rw [onEvent_configured htype hissuer hdev hphase] at hcall
      rcases completeConfiguration_cases hcall with ⟨hnone, -, -⟩ | ⟨hsuccess, -⟩
      · rw [hdev] at hnone
        cases hnone
      · exact hsuccess
  | endpointCutOff htype hdev hcompletes hphase hspeed hcut =>
      obtain ⟨dev', pool', hreceived, hinit⟩ := hcompletes
      have hcontext := (transfer_kept hreceived hinit).1
      rw [onEvent_transfer htype] at hcall
      unfold onTransferEvent at hcall
      dsimp only at hcall
      rw [hdev] at hcall
      obtain ⟨⟨err₁, dev₁, pool₁⟩, hreceived₁, hcall⟩ := bind_eq_ok.mp hcall
      rw [hreceived] at hreceived₁
      cases hreceived₁
      rw [← hcontext] at hphase hspeed
      dsimp only at hcall
      rw [if_neg (not_not.mpr rfl)] at hcall
      unfold afterTransferEvent at hcall
      dsimp only at hcall
      rw [if_pos (by exact ⟨hinit, hphase⟩)] at hcall
      exact configureEndpoints_success hspeed hcall

/-- The completion of an Enable Slot command that no port waits for. -/
theorem onEvent_refused (htype : trb.trbType = commandCompletionEventType)
    (hissuer : (trbAt env c trb.pointer60).trbType = enableSlotCommandType)
    (hphase : c.portConfigPhase c.addressingPort ≠ .kEnablingSlot) :
    onEvent env trb c = .ok (.kInvalidPhase, c) := by
  rw [onEvent_command htype]
  unfold onCommandCompletionEvent onEnableSlotCompleted
  dsimp only
  rw [if_pos hissuer, if_pos hphase]

/-- An error that is ignored is swallowed. -/
theorem Ignored.swallowed (h : Ignored env c trb) (hhas : c.er.hasFront = .ok true)
    (hfront : c.er.front = .ok trb) : ¬ SwallowsNothing env c := by
  intro hnothing
  obtain ⟨op, err, hcalled, herr⟩ := h.called
  exact not_told hhas hfront h.succeeds ((hnothing trb hhas hfront).1 op err hcalled herr)

end Handling

/-- **When no error is swallowed.** In every state, whatever event is in front: a call of
`ProcessEvent` tells of every error of the operations it calls, and leaves a slot in use alone,
exactly if the event is none of the five kinds listed. -/
theorem swallows_nothing_iff (env : Surroundings) (c : Controller) :
    SwallowsNothing env c ↔
      ∀ trb, c.er.hasFront = .ok true → c.er.front = .ok trb → ¬ Ignored env c trb := by
  constructor
  · exact fun h trb hhas hfront hignored => hignored.swallowed hhas hfront h
  · intro h trb hhas hfront
    have hnot := h trb hhas hfront
    constructor
    · intro op err hcalled herr
      rcases called_error hcalled herr with hignored | ⟨htype, hissuer, hphase, hslot⟩
      · exact absurd hignored hnot
      · -- A slot that does not exist.
        have hevent : onEvent env trb c = .ok (.kInvalidSlotID, c) := by
          rw [onEvent_enabled htype hissuer hphase, addressDevice_noSlot hslot]
        exact ⟨_, _, processEvent_of_onEvent hhas hfront hevent, by decide, fun p => le_refl _⟩
    · intro dev htype hissuer hdev
      have hphase : c.portConfigPhase c.addressingPort ≠ .kEnablingSlot :=
        fun hphase => hnot (.used htype hissuer hphase hdev)
      exact ⟨_, _, processEvent_of_onEvent hhas hfront (onEvent_refused htype hissuer hphase), hdev,
        rfl⟩

/-- Port 1 has a device in slot 1, and port 2 is told that slot 1 has been enabled for
it. -/
def slotTwice : Controller :=
  (performed NamesPort sampleController
    [.configurePort (portsShow fun _ => 1) 1,
      .event (portsShow fun _ => 0x200003) (portStatusChangeEvent 1),
      .event (portsShow fun _ => 0x200003)
        (commandCompletionEvent (sampleController.cr.slotAddr 0) 1 1),
      .context 1 (slotContextOf 1),
      .event (portsShow fun _ => 0x200003)
        (commandCompletionEvent (sampleController.cr.slotAddr 1) 1 1),
      .event (portsShow fun _ => 0x200003) (portStatusChangeEvent 2),
      .event (portsShow fun _ => 0x200003) (portStatusChangeEvent 2)]).postEvent
    (commandCompletionEvent (sampleController.cr.slotAddr 2) 1 1)

/-- **An error is swallowed**: `AllocDevice` refuses the slot, port 2 goes on all the
same, and the device of port 1 gets a new control ring. -/
theorem slot_enabled_twice : ReflTransGen (Step NamesPort) sampleController slotTwice ∧
    ¬ SwallowsNothing (portsShow fun _ => 0x200003) slotTwice ∧
    returns (processEvent (portsShow fun _ => 0x200003) slotTwice) (fun result =>
      result.1 == .kSuccess && result.2.portConfigPhase 2 == .kAddressingDevice &&
        ((result.2.devmgr.findBySlot 1).bind fun dev => dev.transferRings 0).map Ring.buf !=
          ((slotTwice.devmgr.findBySlot 1).bind fun dev => dev.transferRings 0).map Ring.buf) =
      true := by
  refine ⟨?_, ?_, by decide +kernel⟩
  · unfold slotTwice
    exact (performed_run _ _ _).tail .hardware
  · have hready : returns slotTwice.er.hasFront id = true := by decide +kernel
    have hevent : returns slotTwice.er.front (fun trb =>
        trb.trbType == commandCompletionEventType &&
          (trbAt (portsShow fun _ => 0x200003) slotTwice trb.pointer60).trbType ==
            enableSlotCommandType &&
          (slotTwice.devmgr.findBySlot (eventSlotId trb)).isSome) = true := by decide +kernel
    have hphase : slotTwice.portConfigPhase slotTwice.addressingPort = .kEnablingSlot := by
      decide +kernel
    obtain ⟨ready, hhas, rfl⟩ := exists_of_returns hready
    obtain ⟨trb, hfront, htrb⟩ := exists_of_returns hevent
    simp only [Bool.and_eq_true, beq_iff_eq] at htrb
    obtain ⟨⟨htype, hissuer⟩, hused⟩ := htrb
    obtain ⟨dev, hdev⟩ := Option.isSome_iff_exists.mp hused
    exact (Ignored.used htype hissuer hphase hdev).swallowed hhas hfront

end Controller

end Mikanos.Xhci
