import Mathlib.Data.List.TakeWhile
import Mikanos.Usb.DescriptorSafety
import Mikanos.Xhci.ControllerRuns
import Mikanos.Xhci.Initialize

/-!
# When the memory pool runs out

`AllocMem` returns null when a block does not fit.  This module lists the requests
that `AddressDevice`, `ConfigureEndpoints` and `InitializePhase2` make.  None of the
three reports a request that gets null.  The object of a device, of a ring or of a
class driver is used without a test.  A ring without a buffer is given to the
controller, and the command that does so is pushed.
-/

namespace Mikanos.Xhci

open Mikanos.Usb

/-! ## Requests -/

/-- The requests of `AllocTransferRing`: the ring object, and its 32 TRBs. -/
def ringRequests : List MemRequest :=
  [⟨32 * 1, 64, 4096⟩, ⟨16 * BitVec.ofNat 64 32, 64, 64 * 1024⟩]

/-- The request of `AllocDevice`. -/
def deviceRequest : MemRequest := ⟨Device.sizeOf * 1, 64, 4096⟩

/-- The allocation of a device, as a request of the list that is asked of the pool. -/
theorem allocArray_deviceRequest (pool : Pool) :
    pool.allocArray Device.sizeOf 1 64 4096 = pool.serve deviceRequest := rfl

/-- The request of `operator new` of a HID driver. -/
def driverRequest : MemRequest := ⟨Device.hidSizeOf, 0, 0⟩

namespace Device

/-! Pairs whose parts are better not evaluated. -/

theorem fst_of_eq {α β : Type} {p : α × β} {a : α} {b : β} (h : p = (a, b)) : p.1 = a := by
  rw [h]

theorem snd_of_eq {α β : Type} {p : α × β} {a : α} {b : β} (h : p = (a, b)) : p.2 = b := by
  rw [h]

/-- `Initialize` of a ring takes one block; whether it is null or not, the pool is what the
allocation has left. -/
theorem useBlock_pool (r : Ring) (n : Nat) (block : Addr × Pool) :
    (r.useBlock n block).2.2 = block.2 := by
  unfold Ring.useBlock
  dsimp only
  split
  · rfl
  · rfl

/-- `Ring::Initialize` makes one request, 16 bytes for each TRB, aligned to 64 and within 64
KiB, whatever comes of it. -/
theorem initializeRing_pool (r : Ring) (n : Nat) (pool : Pool) :
    (r.initializeRing n pool).2.2 =
      (pool.allocArray 16 (BitVec.ofNat 64 n) 64 (64 * 1024)).2 := by
  rw [Ring.initializeRing, useBlock_pool]

/-- Without memory for the ring object there is no ring. -/
theorem placeRing_of_eq {n : Nat} {block : Addr × Pool} (h : block.1 = nullptr) :
    placeRing n block = (none, block.2) := if_pos h

/-- With memory for the ring object the ring is initialized there, and the result of that is
dropped: this is the place where a missing buffer gets lost. -/
theorem placeRing_of_ne {n : Nat} {block : Addr × Pool} (h : block.1 ≠ nullptr) :
    placeRing n block =
      (some (rawRing.initializeRing n block.2).2.1, (rawRing.initializeRing n block.2).2.2) :=
  if_neg h

/-- A ring that was made has asked the pool for its TRBs, whether it got them or not. -/
theorem placeRing_pool {n : Nat} {block : Addr × Pool} (h : (placeRing n block).1 ≠ none) :
    (placeRing n block).2 = (block.2.allocArray 16 (BitVec.ofNat 64 n) 64 (64 * 1024)).2 := by
  rcases eq_or_ne block.1 nullptr with hnull | hne
  · rw [placeRing_of_eq hnull] at h
    exact absurd rfl h
  · have hplaced := placeRing_of_ne (n := n) hne
    rw [initializeRing_pool] at hplaced
    exact snd_of_eq hplaced

/-- `AllocTransferRing` with its first allocation named, so that a proof can treat the rest as a
function of that block. -/
theorem allocTransferRing_placed {dev : Device} {i : Fin 31} {n : Nat} {pool : Pool}
    {placed : Option Ring × Pool}
    (h : placeRing n (pool.allocArray 32 1 64 4096) = placed) :
    dev.allocTransferRing i n pool = (placed.1, dev.setRing i placed.1, placed.2) := by
  subst h
  rfl

/-- A ring that `AllocTransferRing` returns has an object, and `Initialize` has run. -/
theorem allocTransferRing_pool {dev : Device} {i : Fin 31} {n : Nat} {pool : Pool}
    (h : (dev.allocTransferRing i n pool).1 ≠ none) :
    (dev.allocTransferRing i n pool).2.2 =
      ((pool.allocArray 32 1 64 4096).2.allocArray 16 (BitVec.ofNat 64 n) 64 (64 * 1024)).2 := by
  have hplace := @placeRing_pool n (pool.allocArray 32 1 64 4096)
  generalize hplaced : placeRing n (pool.allocArray 32 1 64 4096) = placed at hplace
  have hring := @allocTransferRing_placed dev i n pool placed hplaced
  rw [fst_of_eq hring] at h
  rw [snd_of_eq (snd_of_eq hring), hplace h]

/-- **The requests of a transfer ring**: a call that returns a ring has asked for the object and
for the TRBs, in this order. -/
theorem allocTransferRing_requests {dev : Device} {i : Fin 31} {pool : Pool}
    (h : (dev.allocTransferRing i 32 pool).1 ≠ none) :
    (dev.allocTransferRing i 32 pool).2.2 = pool.serveAll ringRequests := by
  rw [allocTransferRing_pool h, ringRequests, Pool.serveAll_cons, Pool.serveAll_cons,
    Pool.serveAll_nil, Pool.allocArray_eq_serve, Pool.allocArray_eq_serve]

/-- The endpoint table, over which the loop of `ConfigureEndpoints` runs, is not changed by the
allocation. -/
theorem allocTransferRing_epConfigs (dev : Device) (i : Fin 31) (n : Nat) (pool : Pool) :
    (dev.allocTransferRing i n pool).2.1.epConfigs = dev.epConfigs := by
  unfold allocTransferRing
  generalize placeRing n (pool.allocArray 32 1 64 4096) = placed
  rfl

/-- The endpoint number `n` has a transfer ring. -/
def HasRing (dev : Device) (n : Nat) : Bool :=
  if h : n < 16 then
    let address := (dev.epConfigs ⟨n, h⟩).epId.address
    decide (1 ≤ address ∧ address ≤ 31)
  else false

/-- The requests of the loop of `ConfigureEndpoints`, up to an endpoint that has no
ring. -/
def endpointRequests (dev : Device) : List MemRequest :=
  ((List.range dev.numEpConfigs).takeWhile dev.HasRing).flatMap fun _ => ringRequests

/-- The control ring is used only if its object exists; using it asks the pool for nothing. -/
theorem useControlRing_requests {result : Option Ring × Device × Pool} {dev' : Device}
    {pool' : Pool} (h : useControlRing result = .ok (dev', pool')) :
    result.1 ≠ none ∧ pool' = result.2.2 := by
  unfold useControlRing at h
  split at h
  · cases h
  · rename_i tr htr
    obtain ⟨-, hpool⟩ := Prod.mk.inj (Except.ok.inj h)
    exact ⟨by rw [htr]; simp, hpool.symm⟩

/-- One round of the loop over the endpoints goes on only if the endpoint has got its ring, and
takes nothing else from the pool. -/
theorem useEndpointRing_requests {i : Fin 31} {conf : EndpointConfig} {portSpeed : BitVec 4}
    {result : Option Ring × Device × Pool} {dev' : Device} {pool' : Pool}
    (h : useEndpointRing i conf portSpeed result = .ok (dev', pool')) :
    result.1 ≠ none ∧ pool' = result.2.2 ∧ dev'.epConfigs = result.2.1.epConfigs := by
  obtain ⟨inputContext, rfl⟩ := useEndpointRing_fields h
  unfold useEndpointRing at h
  split at h
  · cases h
  · rename_i tr htr
    obtain ⟨-, hpool⟩ := Prod.mk.inj (Except.ok.inj h)
    exact ⟨by rw [htr]; simp, hpool.symm, rfl⟩

/-- **The loop of `ConfigureEndpoints`** makes one pair of requests for each endpoint, by
induction on the endpoints, and returns only if each has a ring. -/
theorem configureEndpointLoop_requests {portSpeed : BitVec 4} {dev : Device} {pool : Pool}
    (n : Nat) : ∀ {dev' : Device} {pool' : Pool},
      configureEndpointLoop portSpeed dev pool n = .ok (dev', pool') →
      dev'.epConfigs = dev.epConfigs ∧ (∀ k ∈ List.range n, dev.HasRing k = true) ∧
        pool' = pool.serveAll ((List.range n).flatMap fun _ => ringRequests) := by
  induction n with
  | zero =>
      intro dev' pool' h
      cases h
      exact ⟨rfl, fun k hk => absurd hk List.not_mem_nil, rfl⟩
  | succ n ih =>
      intro dev' pool' h
      obtain ⟨dev₁, pool₁, hn, i, hrest, hi, h⟩ := configureEndpointLoop_succ h
      obtain ⟨hconfigs, hrings, rfl⟩ := ih hrest
      have hring : dev.HasRing n = true := by
        unfold dciIndex at hi
        split at hi
        · rename_i hdci
          rw [hconfigs] at hdci
          unfold HasRing
          rw [dif_pos hn]
          exact decide_eq_true hdci
        · cases hi
      have hsame := allocTransferRing_epConfigs (dev₁.enableInputEndpoint i) i 32
        (pool.serveAll ((List.range n).flatMap fun _ => ringRequests))
      have hpool := @allocTransferRing_requests (dev₁.enableInputEndpoint i) i
        (pool.serveAll ((List.range n).flatMap fun _ => ringRequests))
      generalize (dev₁.enableInputEndpoint i).allocTransferRing i 32 _ = result at h hsame hpool
      obtain ⟨hused, hpool', hkept⟩ := useEndpointRing_requests h
      refine ⟨?_, fun k hk => ?_, ?_⟩
      · rw [hkept, hsame]
        exact hconfigs
      · rw [List.mem_range] at hk
        rcases Nat.lt_succ_iff_lt_or_eq.mp hk with hlt | rfl
        · exact hrings k (List.mem_range.mpr hlt)
        · exact hring
      · rw [List.range_succ, List.flatMap_append, Pool.serveAll_append, hpool', hpool hused,
          List.flatMap_singleton]

/-- `InitializePhase2` comes to a supported interface. -/
def WantsDriver (m : Dma) (buf : Addr) (len : Int) : Prop :=
  (m.bytes buf)[1]? = some kConfigurationDescriptor ∧
    ∃ k, FirstInterface (m.bytes buf) len.toNat k

/-- The call fails with an error, and the doorbell has not been rung. -/
def Reported (dev : Device) (result : Except Fault (Error × Device × Pool)) : Prop :=
  ∃ err dev' pool', result = .ok (err, dev', pool') ∧ err ≠ .kSuccess ∧
    dev'.doorbell = dev.doorbell

/-- **`InitializePhase2` without memory** for the class driver that it wants stores through the
null pointer that it has got. -/
theorem initializePhase2_exhausted {m : Dma} {obs : DefaultObservers} {dev : Device} {pool : Pool}
    {buf : Addr} {len : Int} (hlen : len ≤ (m.bytes buf).length)
    (hwants : WantsDriver m buf len) (hnull : ¬ pool.Serves [driverRequest]) :
    initializePhase2 m obs dev pool buf len = .error .nullDereference := by
  have hnull : (pool.allocMem hidSizeOf 0 0).1 = nullptr := by
    by_contra hne
    exact hnull ⟨hne, trivial⟩
  obtain ⟨htype, k, hfirst⟩ := hwants
  rcases eq_or_ne buf nullptr with rfl | hbuf
  · rfl
  · obtain ⟨hone, -⟩ := List.getElem?_eq_some_iff.mp htype
    have hinside := hfirst.inside
    obtain ⟨n, rfl⟩ := Int.eq_ofNat_of_zero_le (by omega : 0 ≤ len)
    rw [Int.toNat_natCast] at hfirst hinside
    have hbyte : m.byte buf 1 = .ok kConfigurationDescriptor := by
      rcases byte_cases (m := m) hbuf 1 with ⟨-, hbyte⟩ | ⟨hge, -⟩
      · rw [hbyte, List.getD_eq_getElem?_getD, htype, Option.getD_some]
      · omega
    have hloop : interfaceLoop m obs (n + 257) (n + 257) (readerAt m buf n 0) dev pool =
        .error .nullDereference := by
      cases search_end obs dev pool hbuf (by omega) (by omega) rfl (by omega : n < n + 257)
          hfirst.skips hfirst.stops with
      | nothing hend _ => omega
      | cutOff _ hcut _ => exact absurd hfirst.fits hcut
      | noMemory _ _ _ _ hresult => exact hresult
      | interface _ _ _ _ _ hpool _ => exact absurd hnull hpool
    rw [initializePhase2_eq hbyte, hloop]
    rfl

end Device

namespace Controller

open Device (FirstInterface bufferOf mouseConfiguration mouseDescriptors)

/-- The requests of `AddressDevice`. -/
def addressRequests (c : Controller) (slotId : BitVec 8) : List MemRequest :=
  if c.devmgr.maxSlots < slotId.toNat then []
  else if (c.devmgr.devices slotId.toNat).isSome then ringRequests
  else deviceRequest :: ringRequests

/-- The requests of `ConfigureEndpoints`. -/
def configureRequests (env : Surroundings) (dev : Device) : List MemRequest :=
  let portSpeed := (env.portsc dev.slotContext.rootHubPortNum 0).portSpeed
  if portSpeed = 0 ∨ 5 < portSpeed.toNat then [] else dev.endpointRequests

/-- The call fails with an error, and nothing has been told to the controller. -/
def Reported (c : Controller) (result : Except Fault (Error × Controller)) : Prop :=
  ∃ err c', result = .ok (err, c') ∧ err ≠ .kSuccess ∧ c'.doorbellRings = c.doorbellRings

/-- `AddressDevice` asks for the two blocks of the control ring once the device is there, and
for nothing else. -/
theorem addressFound_requests {env : Surroundings} {c c' : Controller} {portId slotId : BitVec 8}
    {dev : Device} {err : Error} (h : addressFound env c portId slotId dev = .ok (err, c')) :
    c'.pool = c.pool.serveAll ringRequests := by
  unfold addressFound at h
  dsimp only at h
  have hpool := @Device.allocTransferRing_requests
    (dev.prepareAddress portId (env.portsc portId 0).portSpeed) 0 c.pool
  generalize (dev.prepareAddress portId _).allocTransferRing 0 32 c.pool = result at h hpool
  obtain ⟨⟨dev', pool'⟩, huse, h⟩ := bind_eq_ok.mp h
  obtain ⟨⟨err₁, devmgr⟩, -, h⟩ := bind_eq_ok.mp h
  obtain ⟨c₁, hpush, h⟩ := bind_eq_ok.mp h
  cases h
  obtain ⟨position, cr, -, rfl⟩ := pushCommand_cases hpush
  obtain ⟨hused, hpool'⟩ := Device.useControlRing_requests huse
  exact hpool'.trans (hpool hused)

/-- `AllocDevice` constructs the device in its block, and takes nothing else from the pool. -/
theorem placeDevice_pool {d d' : DeviceManager} {slotId : BitVec 8} {block : Addr × Pool}
    {err : Error} {pool' : Pool} (h : d.placeDevice slotId block = .ok (err, d', pool')) :
    pool' = block.2 ∧ d' = d.setDevice slotId (Device.new block.1 slotId) := by
  unfold DeviceManager.placeDevice at h
  split at h
  · cases h
  · cases h
    exact ⟨rfl, rfl⟩

/-- The requests of `AddressDevice` are those that `addressRequests` lists, in every call that
returns. -/
theorem addressDevice_requests {env : Surroundings} {c c' : Controller} {portId slotId : BitVec 8}
    {err : Error} (h : addressDevice env c portId slotId = .ok (err, c')) :
    c'.pool = c.pool.serveAll (addressRequests c slotId) := by
  unfold addressDevice at h
  obtain ⟨⟨err₁, devmgr, pool⟩, halloc, h⟩ := bind_eq_ok.mp h
  dsimp only at h
  unfold DeviceManager.allocDevice at halloc
  unfold addressRequests
  split at halloc
  · rename_i hslot
    cases halloc
    rw [if_pos hslot]
    have hnone : c.devmgr.findBySlot slotId = none := by
      unfold DeviceManager.findBySlot
      rw [if_pos hslot]
    rw [hnone] at h
    cases h
    rfl
  · rename_i hslot
    rw [if_neg hslot]
    split at halloc
    · rename_i hused
      cases halloc
      rw [if_pos hused]
      split at h
      · rename_i hnone
        rw [DeviceManager.findBySlot_of_le (Nat.le_of_not_lt hslot)] at hnone
        rw [hnone] at hused
        cases hused
      · exact addressFound_requests h
    · rename_i hfree
      rw [if_neg hfree]
      rw [allocArray_deviceRequest] at halloc
      obtain ⟨hpool, hplaced⟩ := placeDevice_pool halloc
      rw [hplaced, DeviceManager.findBySlot_setDevice _ (Nat.le_of_not_lt hslot)] at h
      have hrings := addressFound_requests h
      change c'.pool = pool.serveAll ringRequests at hrings
      rw [hrings, hpool, Pool.serveAll_cons]

/-- **The requests of `ConfigureEndpoints`**: none if the speed of the port is unknown,
otherwise two for each endpoint of the table, in the order of the table. -/
theorem configureEndpoints_requests {env : Surroundings} {c c' : Controller} {slotId : BitVec 8}
    {dev : Device} {err : Error} (h : configureEndpoints env c slotId dev = .ok (err, c')) :
    c'.pool = c.pool.serveAll (configureRequests env dev) := by
  unfold configureRequests
  dsimp only
  rcases configureEndpoints_parts h with
    ⟨hspeed, -, rfl⟩ | ⟨hspeed, -, dev', pool, position, cr, hloop, -, rfl⟩
  · rw [if_pos hspeed]
    rfl
  · rw [if_neg hspeed]
    obtain ⟨-, hrings, hpool⟩ := Device.configureEndpointLoop_requests _ hloop
    have htake : (List.range dev.numEpConfigs).takeWhile dev.HasRing =
        List.range dev.numEpConfigs := List.takeWhile_eq_self_iff.mpr hrings
    unfold Device.endpointRequests
    rw [htake]
    exact hpool

/-! ## Nothing is reported -/

/-- If a request of `AddressDevice` is not served, then no outcome of the call reports that:
either it runs into undefined behaviour, or it returns `kSuccess`. -/
theorem addressDevice_unreported {env : Surroundings} {c : Controller} {portId slotId : BitVec 8}
    (h : ¬ c.pool.Serves (addressRequests c slotId)) :
    ¬ Reported c (addressDevice env c portId slotId) := by
  intro hreported
  obtain ⟨err, c', hcall, herr, -⟩ := hreported
  rcases addressDevice_cases hcall with ⟨hslot, -, -⟩ | ⟨-, hsuccess, -⟩
  · unfold addressRequests at h
    rw [if_pos hslot] at h
    exact h trivial
  · exact herr hsuccess

/-- If the pool cannot serve what `ConfigureEndpoints` asks for, the failure is not reported:
there is no call that returns an error and rings no doorbell. -/
theorem configureEndpoints_unreported {env : Surroundings} {c : Controller} {slotId : BitVec 8}
    {dev : Device} (h : ¬ c.pool.Serves (configureRequests env dev)) :
    ¬ Reported c (configureEndpoints env c slotId dev) := by
  intro hreported
  obtain ⟨err, c', hcall, herr, -⟩ := hreported
  unfold configureRequests at h
  dsimp only at h
  rcases configureEndpoints_parts hcall with ⟨hspeed, -, -⟩ | ⟨-, hsuccess, -⟩
  · rw [if_pos hspeed] at h
    exact h trivial
  · exact herr hsuccess

/-- A class driver for which there is no memory is not reported either: its constructor runs at
address null. -/
theorem initializePhase2_unreported {m : Dma} {obs : Device.DefaultObservers} {dev : Device}
    {pool : Pool} {buf : Addr} {len : Int} (hlen : len ≤ (m.bytes buf).length)
    (hwants : Device.WantsDriver m buf len) (h : ¬ pool.Serves [driverRequest]) :
    ¬ dev.Reported (Device.initializePhase2 m obs dev pool buf len) := by
  intro hreported
  obtain ⟨err, dev', pool', hcall, -⟩ := hreported
  rw [Device.initializePhase2_exhausted hlen hwants h] at hcall
  cases hcall

/-- Where a shortage is never told, "every shortage is told" says that there is none. -/
theorem reported_iff {Served Told : Prop} (h : ¬ Served → ¬ Told) :
    (¬ Served → Told) ↔ Served := by
  constructor
  · intro htold
    by_contra hnot
    exact h hnot (htold hnot)
  · exact fun hserved hnot => absurd hserved hnot

/-- **No exhaustion of the pool is reported.** Each of the three operations reports a request
that gets null only if there is none: with the first null pointer the call goes on, or faults.
-/
theorem exhaustion_reported_iff (env : Surroundings) (c : Controller) (portId slotId : BitVec 8)
    (dev : Device) :
    ((¬ c.pool.Serves (addressRequests c slotId) →
        Reported c (addressDevice env c portId slotId)) ↔
      c.pool.Serves (addressRequests c slotId)) ∧
    ((¬ c.pool.Serves (configureRequests env dev) →
        Reported c (configureEndpoints env c slotId dev)) ↔
      c.pool.Serves (configureRequests env dev)) ∧
    ∀ (buf : Addr) (len : Int), len ≤ (env.dma.bytes buf).length →
      Device.WantsDriver env.dma buf len →
      ((¬ c.pool.Serves [driverRequest] →
          dev.Reported (Device.initializePhase2 env.dma env.observers dev c.pool buf len)) ↔
        c.pool.Serves [driverRequest]) :=
  ⟨reported_iff addressDevice_unreported, reported_iff configureEndpoints_unreported,
    fun _ _ hlen hwants => reported_iff (initializePhase2_unreported hlen hwants)⟩

/-- A pool of which nothing is left. -/
def emptyPool : Pool := ⟨samplePool, 0x220040⟩

/-- The boot mouse wants a driver.  A fresh pool has room for it; a pool of which nothing is left
has not, and there the claim fails: the driver is not reported to be missing. -/
theorem exhaustion_reported_iff_mouse :
    (Pool.init samplePool).Serves [driverRequest] ∧ ¬ emptyPool.Serves [driverRequest] ∧
    ¬ (¬ emptyPool.Serves [driverRequest] →
      (Device.new 0x200040 1).Reported (Device.initializePhase2
        (bufferOf (mouseConfiguration :: mouseDescriptors).flatten) ⟨false, true⟩
        (Device.new 0x200040 1) emptyPool 0x2000c8 34)) ∧
    (¬ (Pool.init samplePool).Serves [driverRequest] →
      (Device.new 0x200040 1).Reported (Device.initializePhase2
        (bufferOf (mouseConfiguration :: mouseDescriptors).flatten) ⟨false, true⟩
        (Device.new 0x200040 1) (Pool.init samplePool) 0x2000c8 34)) := by
  have hfirst : FirstInterface (mouseConfiguration :: mouseDescriptors).flatten 34 0 :=
    ⟨fun j hj => absurd hj (Nat.not_lt_zero j), by decide, by decide, by decide⟩
  have hwants : Device.WantsDriver
      (bufferOf (mouseConfiguration :: mouseDescriptors).flatten) 0x2000c8 34 :=
    ⟨by decide, 0, hfirst⟩
  have hboth := fun pool => exhaustion_reported_iff ⟨fun _ _ => 0, fun _ => true,
    bufferOf (mouseConfiguration :: mouseDescriptors).flatten, ⟨false, true⟩⟩
    (Controller.new 3 pool) 1 1 (Device.new 0x200040 1)
  have hserved : (Pool.init samplePool).Serves [driverRequest] := by decide
  have hempty : ¬ emptyPool.Serves [driverRequest] := by decide
  refine ⟨hserved, hempty, fun hreported => ?_, ?_⟩
  · exact hempty (((hboth emptyPool).2.2 _ _ (by decide) hwants).mp hreported)
  · exact ((hboth (Pool.init samplePool)).2.2 _ _ (by decide) hwants).mpr hserved

/-- The driver when 4032 bytes of the pool are left, enough for a device and a ring
object, but not for the TRBs of the ring. -/
def nearlyFull : Controller := { sampleController with pool := ⟨samplePool, 0x21f080⟩ }

/-- `AddressDevice` gives the controller a ring at address null: it returns success and rings
the doorbell, with a control ring that has no TRBs. -/
theorem ring_without_buffer : ¬ nearlyFull.pool.Serves (addressRequests nearlyFull 1) ∧
    ¬ Reported nearlyFull (addressDevice (portsShow fun _ => 0) nearlyFull 1 1) ∧
    returns (addressDevice (portsShow fun _ => 0) nearlyFull 1 1) (fun result =>
      result.1 == .kSuccess && result.2.doorbellRings == nearlyFull.doorbellRings + 1 &&
        (((result.2.devmgr.findBySlot 1).bind fun dev => dev.transferRings 0).map Ring.buf ==
          some nullptr)) = true := by
  have hfull : ¬ nearlyFull.pool.Serves (addressRequests nearlyFull 1) := by decide +kernel
  exact ⟨hfull, addressDevice_unreported hfull, by decide +kernel⟩

end Controller

end Mikanos.Xhci
