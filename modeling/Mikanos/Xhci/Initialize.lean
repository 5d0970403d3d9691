import Mikanos.Xhci.Controller

/-!
# Starting the controller

`Controller::Initialize` sets up, in this order, the device manager, the
scratchpad buffers the controller asks for, the command ring and the event ring,
all from the memory pool, and tells the controller where they are.

The registers it reads are the argument `PowerOn`, the ones it writes a list in
program order.  Its handshakes with the controller and the firmware are loops
that wait for a register to change; they either all end or the call does not
return.
-/

namespace Mikanos.Xhci

open BitField Mikanos.Usb

/-- What the controller's registers show to `Initialize`. -/
structure PowerOn where
  hcsparams2 : BitVec 32
  /-- The `k`-th read of USBCMD. -/
  usbcmd : Nat → BitVec 32
  /-- `USBSTS.bits.host_controller_halted` before the reset. -/
  halted : Bool
  config : BitVec 32
  crcr : BitVec 64
  iman : BitVec 32
  /-- Whether the firmware hands over and the controller halts, resets and
  becomes ready. -/
  handshakesEnd : Bool

/-- A write to a register of the controller. -/
inductive RegisterWrite where
  | usbcmd (value : BitVec 32)
  | config (value : BitVec 32)
  | dcbaap (value : BitVec 64)
  | crcr (value : BitVec 64)
  | iman (value : BitVec 32)
  deriving DecidableEq, Repr

/-- `Controller::kDeviceSize`. -/
def kDeviceSize : Nat := 8

/-- The value `Initialize` writes to USBCMD first: interrupts are disabled, and a
controller that is running is stopped. -/
def disableInterrupts (usbcmd : BitVec 32) (halted : Bool) : BitVec 32 :=
  let value := setField (setField (setField usbcmd 2 (0 : BitVec 1)) 3 (0 : BitVec 1)) 10
    (0 : BitVec 1)
  if halted then value else setField value 0 (0 : BitVec 1)

/-- `max_scratchpad_buffers`: a high and a low part of HCSPARAMS2. -/
def maxScratchpadBuffers (hcsparams2 : BitVec 32) : Nat :=
  ((field hcsparams2 27 5).setWidth 16 ||| ((field hcsparams2 21 5).setWidth 16 <<< 5)).toNat

/-- `DCBAAP_Bitmap{}` with `SetPointer(value)`: the field has 26 bits. -/
def dcbaapOf (value : Addr) : BitVec 64 :=
  setField 0 6 ((value >>> 6).setWidth 26 : BitVec 26)

/-- The value `RegisterCommandRing` writes to CRCR. -/
def registerCommandRing (crcr : BitVec 64) (buffer : Addr) : BitVec 64 :=
  setField (setField (setField (setField crcr 0 (1 : BitVec 1)) 1 (0 : BitVec 1)) 2
    (0 : BitVec 1)) 6 ((buffer >>> 6).setWidth 58 : BitVec 58)

namespace Controller

/-- The loop that allocates the scratchpad buffers. -/
def scratchpadPages (pool : Pool) : Nat → List Addr × Pool
  | 0 => ([], pool)
  | n + 1 =>
      let (pages, pool) := scratchpadPages pool n
      let block := pool.allocMem 4096 4096 4096
      (pages ++ [block.1], block.2)

/-- The scratchpad buffers, when their array is at `block`.  The array is written
to even when it could not be allocated. -/
def useScratchpadArray (c : Controller) (n : Nat) (block : Addr × Pool) :
    Except Fault Controller :=
  if block.1 = nullptr then .error .nullDereference
  else
    let (pages, pool) := scratchpadPages block.2 n
    let pointers := Function.update c.devmgr.deviceContextPointers 0 block.1
    .ok { c with
      pool := pool
      scratchpad := some (block.1, pages)
      devmgr := { c.devmgr with deviceContextPointers := pointers } }

/-- The part of `Initialize` for `n` scratchpad buffers. -/
def initializeScratchpad (c : Controller) (n : Nat) : Except Fault Controller :=
  if 0 < n then c.useScratchpadArray n (c.pool.allocArray 8 (BitVec.ofNat 64 n) 64 4096)
  else .ok c

/-- The end of `Initialize`, with the event ring. -/
def useEventRing (hw : PowerOn) (c : Controller) (writes : List RegisterWrite)
    (result : Error × EventRing × Pool) : Error × Controller × List RegisterWrite :=
  let c := { c with er := result.2.1, pool := result.2.2 }
  if result.1 ≠ .kSuccess then (result.1, c, writes)
  else (.kSuccess, c, writes ++
    [.iman (setField (setField hw.iman 0 (1 : BitVec 1)) 1 (1 : BitVec 1)),
      .usbcmd (setField (hw.usbcmd 2) 2 (1 : BitVec 1))])

/-- The part of `Initialize` from the command ring on. -/
def useCommandRing (hw : PowerOn) (c : Controller) (writes : List RegisterWrite)
    (result : Error × Ring × Pool) : Error × Controller × List RegisterWrite :=
  let c := { c with cr := result.2.1, pool := result.2.2 }
  if result.1 ≠ .kSuccess then (result.1, c, writes)
  else
    useEventRing hw c (writes ++ [.crcr (registerCommandRing hw.crcr c.cr.buf)])
      (c.er.initializeEventRing 32 c.pool)

/-- What `Initialize` writes before it sets up the rings. -/
def startWrites (hw : PowerOn) (contextArray : Addr) : List RegisterWrite :=
  [.usbcmd (disableInterrupts (hw.usbcmd 0) hw.halted),
    .usbcmd (setField (hw.usbcmd 1) 1 (1 : BitVec 1)),
    .config (setField hw.config 0 (BitVec.ofNat 8 kDeviceSize)),
    .dcbaap (dcbaapOf contextArray)]

/-- The part of `Initialize` after the device manager. -/
def useDeviceManager (hw : PowerOn) (c : Controller) (result : Error × DeviceManager × Pool) :
    Except Fault (Error × Controller × List RegisterWrite) := do
  let c := { c with devmgr := result.2.1, pool := result.2.2 }
  if result.1 ≠ .kSuccess then return (result.1, c, [])
  else if hw.handshakesEnd then do
    let c ← c.initializeScratchpad (maxScratchpadBuffers hw.hcsparams2)
    return useCommandRing hw c (startWrites hw c.devmgr.contextArray)
      (c.cr.initializeRing 32 c.pool)
  else .error .endlessLoop

/-- `Controller::Initialize()`. -/
def initializeController (hw : PowerOn) (c : Controller) :
    Except Fault (Error × Controller × List RegisterWrite) :=
  useDeviceManager hw c (DeviceManager.initializeManager kDeviceSize c.pool)

/-- `Controller(mmio_base)` for a controller with `maxPorts` ports, with the
variables of `xhci.cpp` as the program starts. -/
def new (maxPorts : BitVec 8) (pool : Pool) : Controller where
  maxPorts := maxPorts
  devmgr := ⟨0, fun _ => none, fun _ => nullptr, nullptr⟩
  cr := Device.rawRing
  er := ⟨nullptr, 0, false, nullptr, ⟨0, 0⟩, ⟨0, 0, 0⟩, fun _ => Trb.zero⟩
  pool := pool
  scratchpad := none
  portConfigPhase := fun _ => .kNotConnected
  addressingPort := 0
  portscWrites := []
  doorbellRings := 0
  commands := []

/-- **A successful `Initialize`** leaves no device in any slot, all context
pointers null but that of the scratchpad array, an empty command ring and a
fresh event ring; the ports are as they were. -/
structure Started (c₀ c : Controller) : Prop where
  maxSlots : c.devmgr.maxSlots = kDeviceSize
  devices : ∀ i, c.devmgr.devices i = none
  scratchpadPointer : c.devmgr.deviceContextPointers 0 =
    (c.scratchpad.map Prod.fst).getD nullptr
  contextPointers : ∀ i, i ≠ 0 → c.devmgr.deviceContextPointers i = nullptr
  cr : c.cr.Remembers 32 []
  er : c.er.Fresh 32
  maxPorts : c.maxPorts = c₀.maxPorts
  phases : c.portConfigPhase = c₀.portConfigPhase
  addressingPort : c.addressingPort = c₀.addressingPort
  commands : c.commands = c₀.commands

/-- The device manager after its initialization, whatever its result: it has the number of slots
it was told, no device and no context. -/
theorem initializeManager_cases {maxSlots : Nat} {pool : Pool} {err : Error}
    {d : DeviceManager} {pool' : Pool}
    (h : DeviceManager.initializeManager maxSlots pool = (err, d, pool')) :
    d.maxSlots = maxSlots ∧ (∀ i, d.devices i = none) ∧
      ∀ i, d.deviceContextPointers i = nullptr := by
  unfold DeviceManager.initializeManager at h
  generalize pool.allocArray 8 (BitVec.ofNat 64 (maxSlots + 1)) 0 0 = block at h
  unfold DeviceManager.useDeviceArray at h
  split at h
  · cases h
    exact ⟨rfl, fun _ => rfl, fun _ => rfl⟩
  · generalize block.2.allocArray 8 (BitVec.ofNat 64 (maxSlots + 1)) 64 4096 = block' at h
    unfold DeviceManager.useContextArray at h
    dsimp only at h
    split at h
    · cases h
      exact ⟨rfl, fun _ => rfl, fun _ => rfl⟩
    · cases h
      exact ⟨rfl, fun _ => rfl, fun _ => rfl⟩

/-- The scratchpad step touches the pool, the array and entry 0 of the contexts, and no other
part of the driver. -/
theorem initializeScratchpad_cases {c c' : Controller} {n : Nat}
    (h : c.initializeScratchpad n = .ok c') :
    c' = c ∨ ∃ pool array pages, c' = { c with
      pool := pool
      scratchpad := some (array, pages)
      devmgr := { c.devmgr with
        deviceContextPointers := Function.update c.devmgr.deviceContextPointers 0 array } } := by
  unfold initializeScratchpad at h
  split at h
  · generalize c.pool.allocArray 8 (BitVec.ofNat 64 n) 64 4096 = block at h
    unfold useScratchpadArray at h
    split at h
    · cases h
    · generalize scratchpadPages block.2 n = pages at h
      cases h
      exact Or.inr ⟨pages.2, block.1, pages.1, rfl⟩
  · cases h
    exact Or.inl rfl

/-- The rings, when both could be set up: the command ring has no commands, the event ring is
fresh, and nothing else has changed. -/
theorem useCommandRing_cases {hw : PowerOn} {c c' : Controller}
    {writes writes' : List RegisterWrite}
    (h : useCommandRing hw c writes (c.cr.initializeRing 32 c.pool) = (.kSuccess, c', writes')) :
    c'.cr.Remembers 32 [] ∧ c'.er.Fresh 32 ∧
      ∃ cr er pool, c' = { c with cr := cr, er := er, pool := pool } := by
  generalize hcr : c.cr.initializeRing 32 c.pool = result at h
  obtain ⟨err, cr, pool⟩ := result
  unfold useCommandRing at h
  dsimp only at h
  split at h
  · rename_i hne
    cases h
    exact absurd rfl hne
  · rename_i hsuccess
    have hsuccess : err = .kSuccess := not_not.mp hsuccess
    rw [hsuccess] at hcr
    obtain ⟨hbuf, -, hsize, -, hindex, -⟩ := Ring.initializeRing_success (by omega) hcr
    generalize her : c.er.initializeEventRing 32 pool = result at h
    obtain ⟨err', er, pool'⟩ := result
    unfold useEventRing at h
    dsimp only at h
    split at h
    · rename_i hne
      cases h
      exact absurd rfl hne
    · rename_i hsuccess'
      have hsuccess' : err' = .kSuccess := not_not.mp hsuccess'
      rw [hsuccess'] at her
      cases h
      exact ⟨Ring.remembers_nil hbuf hsize hindex,
        EventRing.initializeEventRing_success (by omega) her, cr, er, pool', rfl⟩

/-- **`Initialize` starts the driver**: when it succeeds, both rings are empty, no device is
there and the ports are as the constructor has left them. -/
theorem initializeController_started {hw : PowerOn} {c₀ c : Controller}
    {writes : List RegisterWrite} (hnone : c₀.scratchpad = none)
    (h : initializeController hw c₀ = .ok (.kSuccess, c, writes)) : Started c₀ c := by
  unfold initializeController at h
  generalize hmanager : DeviceManager.initializeManager kDeviceSize c₀.pool = result at h
  obtain ⟨err, d, pool⟩ := result
  obtain ⟨hmax, hdevices, hpointers⟩ := initializeManager_cases hmanager
  unfold useDeviceManager at h
  dsimp only at h
  split at h
  · rename_i hne
    cases h
    exact absurd rfl hne
  · split at h
    · obtain ⟨c₁, hscratchpad, h⟩ := bind_eq_ok.mp h
      obtain ⟨hcr, her, cr, er, pool', rfl⟩ := useCommandRing_cases (Except.ok.inj h)
      rcases initializeScratchpad_cases hscratchpad with rfl | ⟨pool₁, array, pages, rfl⟩
      · exact ⟨hmax, hdevices, by simp [hnone, hpointers], fun i _ => hpointers i, hcr, her, rfl,
          rfl, rfl, rfl⟩
      · refine ⟨hmax, hdevices, by simp, fun i hi => ?_, hcr, her, rfl, rfl, rfl, rfl⟩
        exact (Function.update_of_ne hi array d.deviceContextPointers).trans (hpointers i)
    · cases h

/-- A controller that asks for no scratchpad buffers and resets as it should. -/
def samplePowerOn : PowerOn where
  hcsparams2 := 0
  usbcmd := fun _ => 0
  halted := true
  config := 0
  crcr := 0
  iman := 0
  handshakesEnd := true

/-- A driver for three ports, before and after `Initialize`. -/
def sampleNew : Controller := Controller.new 3 (Pool.init samplePool)

def sampleController : Controller :=
  ((initializeController samplePowerOn sampleNew).toOption.map fun result => result.2.1).getD
    sampleNew

/-- The driver of the examples is the one that a successful call of `Initialize` leaves. -/
theorem sampleController_initialized :
    ∃ writes, initializeController samplePowerOn sampleNew =
      .ok (.kSuccess, sampleController, writes) := by
  have hreturns : returns (initializeController samplePowerOn sampleNew)
      (fun result => result.1 == .kSuccess) = true := by decide +kernel
  obtain ⟨⟨err, c, writes⟩, hcall, herr⟩ := exists_of_returns hreturns
  have herr : err = .kSuccess := by simpa using herr
  subst herr
  have hc : sampleController = c := by
    unfold sampleController
    rw [hcall]
    rfl
  exact ⟨writes, by rw [hc, hcall]⟩

end Controller

end Mikanos.Xhci
