import Mikanos.Xhci.TransferBuffers

/-!
# Which structures have memory

`Controller.own` is about bytes, and a structure at address null has none.  The driver uses
such structures nevertheless: it does not look at the pages of the scratchpad array, nor at
the result of `Initialize` for the ring of an endpoint.  So the holdings alone do not say
that a structure is where the controller may use it.

`Controller.extent` is where a structure is, null or not.  `Supplied` is what the driver does
about null pointers: once `Initialize` has succeeded, only a page of the scratchpad and the
TRBs of a transfer ring can be at null, and only when the pool was used up
(`Effect.supplied`).  With the holdings this gives `run_ownsApart`: every structure lies in the
pool and apart from the others, but for the ones just named.
-/

namespace Mikanos.Xhci

open Relation Mikanos.Usb

/-- The address and the size of a part of a device. -/
def Device.extent (dev : Device) : DevicePart → Option (Addr × Nat)
  | .object => some (dev.self, Device.sizeOf.toNat)
  | .ring i => (dev.transferRings i).map fun tr => (tr.buf, 16 * tr.bufSize)
  | .driver p => (dev.drivers p).map fun _ => (p, Device.hidSizeOf.toNat)

/-- Every ring of the device is for 32 TRBs.  Where one has no memory for them, fewer bytes are
left in the pool than it needs. -/
structure Device.Supplied (m : MemoryPool) (dev : Device) (pool : Pool) : Prop where
  sound : pool.Sound m
  started : 0 < pool.border
  rings : ∀ i tr, dev.transferRings i = some tr →
    tr.bufSize = 32 ∧ (tr.buf = nullptr → pool.Short (16 * 32))

namespace Device

section Effects

variable {m : MemoryPool} {obs : DefaultObservers} {dev dev' : Device} {pool pool' : Pool}
  {buf : Addr} {len : Int} {err : Error}

/-- The rings stay as they are while the pool shrinks. -/
theorem Supplied.mono (h : dev.Supplied m pool) (hpool : pool'.Sound m)
    (hborder : pool.border ≤ pool'.border) (hrings : dev'.transferRings = dev.transferRings) :
    dev'.Supplied m pool' where
  sound := hpool
  started := Nat.lt_of_lt_of_le h.started hborder
  rings := by
    intro i tr htr
    rw [hrings] at htr
    obtain ⟨hsize, hshort⟩ := h.rings i tr htr
    exact ⟨hsize, fun hnull => (hshort hnull).mono h.sound hpool hborder⟩

/-- One ring of a device is replaced by one that is as long as it should be, and at null only if
the pool is short. -/
theorem Supplied.setRing (h : dev.Supplied m pool) (i : Fin 31) {ring : Option Ring}
    (hring : ∀ tr, ring = some tr →
      tr.bufSize = 32 ∧ (tr.buf = nullptr → pool.Short (16 * 32))) :
    (dev.setRing i ring).Supplied m pool where
  sound := h.sound
  started := h.started
  rings := by
    intro j tr htr
    by_cases hj : j = i
    · subst hj
      have hset : (dev.setRing j ring).transferRings j = ring := Function.update_self _ _ _
      exact hring tr (hset.symm.trans htr)
    · have hsame : (dev.setRing i ring).transferRings j = dev.transferRings j :=
        Function.update_of_ne hj _ _
      exact h.rings j tr (hsame.symm.trans htr)

/-- A request is put on a ring. -/
theorem Supplied.push (h : dev.Supplied m pool) {i : Fin 31} {tr tr' : Ring}
    (hring : dev.transferRings i = some tr)
    (hplace : tr'.buf = tr.buf ∧ tr'.bufSize = tr.bufSize) :
    (dev.setRing i (some tr')).Supplied m pool := by
  refine h.setRing i fun tr₁ htr₁ => ?_
  obtain rfl := Option.some.inj htr₁
  rw [hplace.1, hplace.2]
  exact h.rings i tr hring

/-- A control transfer stores into a ring and moves none, so the rings of the device are
supplied as before. -/
theorem controlTransfer_supplied {type : BitVec 2} {dirIn : Bool} {status : Trb}
    {epId : EndpointID} {setupData : SetupData} {issuer : Addr}
    (hcall : dev.controlTransfer type dirIn status epId setupData buf len issuer = .ok (err, dev'))
    (h : dev.Supplied m pool) : dev'.Supplied m pool := by
  have hwaiter : (dev.addWaiter setupData issuer).Supplied m pool := by
    obtain ⟨eventWaiters, hadd⟩ := addWaiter_fields dev setupData issuer
    rw [hadd]
    exact h.mono h.sound (Nat.le_refl _) rfl
  rcases controlTransfer_pushed hcall with rfl | ⟨i, dci, tr, pushed, hring, hpush, rfl⟩
  · exact hwaiter
  · exact (hwaiter.push hring (pushTransfer_place hpush)).mono h.sound (Nat.le_refl _) rfl

theorem interruptIn_supplied {epId : EndpointID}
    (hcall : dev.interruptIn epId buf len = .ok (err, dev')) (h : dev.Supplied m pool) :
    dev'.Supplied m pool := by
  rcases interruptIn_pushed hcall with rfl | ⟨i, tr, position, tr', hring, hpush, rfl⟩
  · exact h
  · exact (h.push hring (Ring.push_place hpush)).mono h.sound (Nat.le_refl _) rfl

/-- A class driver comes without a ring, so making one changes no ring of the device. -/
theorem newClassDriver_rings {ifDesc : InterfaceDescriptor} {p : Addr}
    (h : newClassDriver obs dev ifDesc pool = .ok (p, dev', pool')) :
    dev'.transferRings = dev.transferRings := by
  unfold newClassDriver at h
  split at h
  · cases h
    rfl
  · obtain ⟨block, hblock⟩ : ∃ block, pool.allocMem hidSizeOf 0 0 = block := ⟨_, rfl⟩
    rw [hblock] at h
    unfold placeClassDriver at h
    split at h
    · cases h
    · cases h
      rfl

/-- The TRBs of a new ring are at null only if the pool had no room for them, which
`AllocTransferRing` does not look at. -/
theorem placeRing_short (hroomy : m.Roomy) {object : Addr × Pool} {tr : Ring} {pool' : Pool}
    (hobject : object.2.Sound m) (hstarted : 0 < object.2.border)
    (h : placeRing 32 object = (some tr, pool')) :
    tr.bufSize = 32 ∧ (tr.buf = nullptr → pool'.Short (16 * 32)) := by
  rcases eq_or_ne object.1 nullptr with hno | hne
  · rw [placeRing_of_eq hno] at h
    cases h
  · rw [placeRing_of_ne hne, Ring.initializeRing] at h
    obtain ⟨block, hblock⟩ : ∃ block,
      object.2.allocArray 16 (BitVec.ofNat 64 32) 64 (64 * 1024) = block := ⟨_, rfl⟩
    have hpool := useBlock_pool rawRing 32 block
    rw [hblock, hpool] at h
    have hplace : (rawRing.useBlock 32 block).2.1.buf = block.1 ∧
        (rawRing.useBlock 32 block).2.1.bufSize = 32 := by
      unfold Ring.useBlock
      dsimp only
      split
      · exact ⟨rfl, rfl⟩
      · exact ⟨rfl, rfl⟩
    generalize (rawRing.useBlock 32 block).2.1 = r at h hplace
    cases h
    refine ⟨hplace.2, fun hnull => ?_⟩
    rw [hplace.1] at hnull
    exact allocMem_short hroomy hobject modest_line modest_segment (by decide) (by decide)
      hstarted hblock hnull

/-- A new ring of a device has its 32 TRBs in the pool, or at null because the pool is used up.
-/
theorem allocTransferRing_supplied (hroomy : m.Roomy) {i : Fin 31}
    {result : Option Ring × Device × Pool} (hcall : dev.allocTransferRing i 32 pool = result)
    (h : dev.Supplied m pool) : result.2.1.Supplied m result.2.2 := by
  obtain ⟨object, hobject⟩ : ∃ object, pool.allocArray 32 1 64 4096 = object := ⟨_, rfl⟩
  obtain ⟨⟨ring, pool'⟩, hplaced⟩ : ∃ placed, placeRing 32 object = placed := ⟨_, rfl⟩
  have hring : dev.allocTransferRing i 32 pool = (ring, dev.setRing i ring, pool') :=
    allocTransferRing_placed (by rw [hobject, hplaced])
  rw [hcall] at hring
  subst hring
  obtain ⟨hsound, hborder, -⟩ :=
    allocMem_border hroomy h.sound modest_line modest_page (by decide) hobject
  obtain ⟨hsound', hgrows⟩ := placeRing_draws hroomy dev i hplaced hsound
  have hstarted : 0 < object.2.border := Nat.lt_of_lt_of_le h.started hborder
  have hmoved : dev.Supplied m pool' :=
    h.mono hsound' (Nat.le_trans hborder hgrows.border) rfl
  refine hmoved.setRing i fun tr htr => ?_
  subst htr
  exact placeRing_short hroomy hsound hstarted hplaced

/-- **One effect** on a device: a ring that is made without TRBs is made of a pool without
room for them, and the other effects leave the rings where they are. -/
theorem Effect.supplied (hroomy : m.Roomy) (heffect : Effect (dev, pool) (dev', pool'))
    (h : dev.Supplied m pool) : dev'.Supplied m pool' := by
  cases heffect with
  | fields _ hrings => exact h.mono h.sound (Nat.le_refl _) hrings
  | driver => exact h.mono h.sound (Nat.le_refl _) rfl
  | controlIn _ hcall => exact controlTransfer_supplied hcall h
  | controlOut _ hcall => exact controlTransfer_supplied hcall h
  | interrupt _ hcall => exact interruptIn_supplied hcall h
  | newDriver hcall =>
      obtain ⟨hsound, hgrows⟩ := newClassDriver_draws hroomy hcall h.sound
      exact h.mono hsound hgrows.border (newClassDriver_rings hcall)
  | newRing hcall => exact allocTransferRing_supplied hroomy hcall h

/-- **Every call** of the device layer. -/
theorem Effects.supplied (hroomy : m.Roomy) (heffects : Effects dev pool dev' pool') :
    dev.Supplied m pool → dev'.Supplied m pool' :=
  heffects.induction (fun dev pool dev' pool' => dev.Supplied m pool → dev'.Supplied m pool')
    (fun _ _ h => h) (fun hfirst hsecond h => hsecond (hfirst h)) (Effect.supplied hroomy)

end Effects

end Device

/-- An event ring that has been initialized with success has its segment and its segment table,
since both allocations are checked. -/
theorem EventRing.initializeEventRing_placed {r r' : EventRing} {n : Nat} {pool pool' : Pool}
    (h : r.initializeEventRing n pool = (.kSuccess, r', pool')) :
    r'.buf ≠ nullptr ∧ r'.erst ≠ nullptr := by
  unfold EventRing.initializeEventRing at h
  obtain ⟨block, hblock⟩ : ∃ block,
    pool.allocArray 16 (BitVec.ofNat 64 n) 64 (64 * 1024) = block := ⟨_, rfl⟩
  rw [hblock] at h
  unfold EventRing.useBlock at h
  dsimp only at h
  split at h
  · cases h
  · rename_i hbuf
    obtain ⟨block', hblock'⟩ : ∃ block', block.2.allocArray 16 1 64 (64 * 1024) = block' := ⟨_, rfl⟩
    rw [hblock'] at h
    unfold EventRing.useTable at h
    dsimp only at h
    split at h
    · cases h
    · rename_i herst
      cases h
      exact ⟨hbuf, herst⟩

namespace Controller

/-- The address and the size of a structure that the driver has.  At address null the driver
has got no memory for it. -/
def extent (c : Controller) : Owner → Option (Addr × Nat)
  | .contexts => some (c.devmgr.contextArray, 8 * (c.devmgr.maxSlots + 1))
  | .scratchpadArray => c.scratchpad.map fun s => (s.1, 8 * s.2.length)
  | .scratchpadPage i => c.scratchpad.bind fun s => s.2[i]?.map fun page => (page, 4096)
  | .commandRing => some (c.cr.buf, 16 * c.cr.bufSize)
  | .eventRing => some (c.er.buf, 16 * c.er.bufSize)
  | .segmentTable => some (c.er.erst, 16)
  | .device slot part => (c.devmgr.devices slot).bind fun dev => dev.extent part

/-- What the driver has memory for.  Only the pages and the rings of the devices are used
without a test for null, and these are missing only when the pool was used up. -/
structure Supplied (m : MemoryPool) (c : Controller) : Prop where
  sound : c.pool.Sound m
  started : 0 < c.pool.border
  contexts : c.devmgr.contextArray ≠ nullptr
  scratchpad : ∀ array pages, c.scratchpad = some (array, pages) →
    array ≠ nullptr ∧ (nullptr ∈ pages → c.pool.Short 4096)
  commandRing : c.cr.buf ≠ nullptr
  eventRing : c.er.buf ≠ nullptr
  segmentTable : c.er.erst ≠ nullptr
  devices : ∀ slot dev, c.devmgr.devices slot = some dev → dev.Supplied m c.pool

section Steps

variable {m : MemoryPool} {c c' : Controller} {slotId : BitVec 8} {dev dev' : Device}
  {pool pool' : Pool} {err : Error}

/-- A device changes or is made, with memory from the pool; the other devices and the
controller's structures are as before. -/
theorem Supplied.setDevice (h : c.Supplied m) (hdev : dev.Supplied m pool')
    (hborder : c.pool.border ≤ pool'.border) :
    ({ c with pool := pool' }.setDevice slotId dev).Supplied m where
  sound := hdev.sound
  started := hdev.started
  contexts := h.contexts
  scratchpad := by
    intro array pages hsome
    obtain ⟨harray, hpages⟩ := h.scratchpad array pages hsome
    exact ⟨harray, fun hnull => (hpages hnull).mono h.sound hdev.sound hborder⟩
  commandRing := h.commandRing
  eventRing := h.eventRing
  segmentTable := h.segmentTable
  devices := by
    intro slot dev₁ hdev₁
    rcases DeviceManager.devices_setDevice_cases hdev₁ with ⟨-, rfl⟩ | ⟨-, hold⟩
    · exact hdev
    · exact (h.devices slot dev₁ hold).mono hdev.sound hborder rfl

/-- A call that moves none of the structures leaves them supplied, with the pool that it leaves.
-/
theorem Supplied.places (h : c.Supplied m) (hplaces : KeepsPlaces c c') : c'.Supplied m where
  sound := by
    rw [hplaces.pool]
    exact h.sound
  started := by
    rw [hplaces.pool]
    exact h.started
  contexts := by
    rw [hplaces.contextArray]
    exact h.contexts
  scratchpad := by
    rw [hplaces.scratchpad, hplaces.pool]
    exact h.scratchpad
  commandRing := by
    rw [hplaces.commandRing.1]
    exact h.commandRing
  eventRing := by
    rw [hplaces.eventRing]
    exact h.eventRing
  segmentTable := by
    rw [hplaces.segmentTable]
    exact h.segmentTable
  devices := by
    rw [hplaces.devices, hplaces.pool]
    exact h.devices

/-- The hardware writes into structures and sets no pointer of the driver, so they are supplied
as before. -/
theorem Supplied.hardware (h : c.Supplied m) (mem : Nat → Trb)
    (interrupter : InterrupterRegisterSet) (contexts : Nat → SlotContext) :
    (c.hardware mem interrupter contexts).Supplied m where
  sound := h.sound
  started := h.started
  contexts := h.contexts
  scratchpad := h.scratchpad
  commandRing := h.commandRing
  eventRing := h.eventRing
  segmentTable := h.segmentTable
  devices := by
    intro slot dev hdev
    obtain ⟨dev₀, hdev₀, rfl⟩ := Option.map_eq_some_iff.mp hdev
    exact (h.devices slot dev₀ hdev₀).mono h.sound (Nat.le_refl _) rfl

/-- A new device has no rings yet, so there is none that could be at null. -/
theorem allocDevice_supplied (hroomy : m.Roomy) {devmgr : DeviceManager}
    (hcall : c.devmgr.allocDevice slotId c.pool = .ok (err, devmgr, pool')) (h : c.Supplied m) :
    Supplied m { c with devmgr := devmgr, pool := pool' } := by
  unfold DeviceManager.allocDevice at hcall
  split at hcall
  · cases hcall
    exact h
  · split at hcall
    · cases hcall
      exact h
    · obtain ⟨block, hblock⟩ : ∃ block,
        c.pool.allocArray Device.sizeOf 1 64 4096 = block := ⟨_, rfl⟩
      rw [hblock] at hcall
      obtain ⟨rfl, rfl⟩ := placeDevice_pool hcall
      obtain ⟨hsound, hborder, -⟩ :=
        allocMem_border hroomy h.sound modest_line modest_page (by decide) hblock
      refine h.setDevice ⟨hsound, Nat.lt_of_lt_of_le h.started hborder, ?_⟩ hborder
      intro i tr htr
      cases htr

/-- **One effect** on the driver: whatever events arrive, the structures that `Initialize` has
made stay where they are, and a device that comes or changes is supplied as far as the pool
reaches. -/
theorem Effect.supplied (hroomy : m.Roomy) (heffect : Effect c c') (h : c.Supplied m) :
    c'.Supplied m := by
  cases heffect with
  | places hplaces => exact h.places hplaces
  | hardware mem interrupter contexts => exact h.hardware mem interrupter contexts
  | device hdev hcall =>
      obtain ⟨-, hgrows⟩ := hcall.draws hroomy h.sound
      exact h.setDevice (hcall.supplied hroomy (h.devices _ _ hdev)) hgrows.border
  | newDevice hcall => exact allocDevice_supplied hroomy hcall h

/-! ## Starting -/

/-- When the device manager is initialized with success its context array is in the pool, and
the pool has begun to be used. -/
theorem initializeManager_supplied (hroomy : m.Roomy) {devmgr : DeviceManager}
    (hpool : pool.Sound m)
    (h : DeviceManager.initializeManager kDeviceSize pool = (.kSuccess, devmgr, pool')) :
    devmgr.contextArray ≠ nullptr ∧ pool'.Sound m ∧ 0 < pool'.border := by
  unfold DeviceManager.initializeManager at h
  obtain ⟨block, hblock⟩ : ∃ block,
    pool.allocArray 8 (BitVec.ofNat 64 (kDeviceSize + 1)) 0 0 = block := ⟨_, rfl⟩
  rw [hblock] at h
  obtain ⟨hsound, -, -⟩ :=
    allocMem_border hroomy hpool modest_zero modest_zero (by decide) hblock
  unfold DeviceManager.useDeviceArray at h
  split at h
  · cases h
  · obtain ⟨block', hblock'⟩ : ∃ block', block.2.allocArray 8
      (BitVec.ofNat 64 (kDeviceSize + 1)) 64 4096 = block' := ⟨_, rfl⟩
    rw [hblock'] at h
    obtain ⟨hsound', -, -⟩ :=
      allocMem_border hroomy hsound modest_line modest_page (by decide) hblock'
    unfold DeviceManager.useContextArray at h
    dsimp only at h
    split at h
    · cases h
    · rename_i hcontexts
      cases h
      exact ⟨hcontexts, hsound', border_pos_of_block hroomy hsound modest_line modest_page
        (by decide) (by decide) hblock' hcontexts⟩

/-- A page at null: by induction over the pages, since what was used up for an earlier page is
used up for the later ones. -/
theorem scratchpadPages_short (hroomy : m.Roomy) (hpool : pool.Sound m) (hstarted : 0 < pool.border)
    (n : Nat) (hnull : nullptr ∈ (scratchpadPages pool n).1) :
    (scratchpadPages pool n).2.Short 4096 := by
  induction n with
  | zero => cases hnull
  | succ n ih =>
      obtain ⟨hsound, hgrows⟩ := scratchpadPages_draws hroomy pool n hpool
      obtain ⟨placed, hplaced⟩ : ∃ placed, scratchpadPages pool n = placed := ⟨_, rfl⟩
      obtain ⟨block, hblock⟩ : ∃ block, placed.2.allocMem 4096 4096 4096 = block := ⟨_, rfl⟩
      rw [hplaced] at hsound hgrows ih
      rw [scratchpadPages_succ hplaced hblock] at hnull ⊢
      obtain ⟨hsound', hborder, -⟩ :=
        allocMem_border hroomy hsound modest_page modest_page (by decide) hblock
      rcases List.mem_append.mp hnull with hearlier | hlast
      · exact (ih hearlier).mono hsound hsound' hborder
      · exact allocMem_short hroomy hsound modest_page modest_page (by decide) (by decide)
          (Nat.lt_of_lt_of_le hstarted hgrows.border) hblock (List.mem_singleton.mp hlast).symm

/-- The scratchpad array is not null, or its entries could not be written, and a page is at null
only if the pool had no room for it. -/
theorem initializeScratchpad_supplied (hroomy : m.Roomy) {n : Nat} (hn : n < 2 ^ 16)
    (hpool : c.pool.Sound m) (hstarted : 0 < c.pool.border) (hnone : c.scratchpad = none)
    (h : c.initializeScratchpad n = .ok c') :
    ∀ array pages, c'.scratchpad = some (array, pages) →
      array ≠ nullptr ∧ (nullptr ∈ pages → c'.pool.Short 4096) := by
  intro array pages hsome
  unfold initializeScratchpad at h
  split at h
  · obtain ⟨block, hblock⟩ : ∃ block,
      c.pool.allocArray 8 (BitVec.ofNat 64 n) 64 4096 = block := ⟨_, rfl⟩
    rw [hblock] at h
    have hsize := toNat_arraySize hn
    obtain ⟨hsound, hborder, -⟩ :=
      allocMem_border hroomy hpool modest_line modest_page (by omega) hblock
    have hshort := scratchpadPages_short hroomy hsound (Nat.lt_of_lt_of_le hstarted hborder) n
    unfold useScratchpadArray at h
    split at h
    · cases h
    · rename_i harray
      generalize scratchpadPages block.2 n = placed at h hshort
      cases h
      cases hsome
      exact ⟨harray, hshort⟩
  · cases h
    rw [hnone] at hsome
    cases hsome

/-- The command ring and the event ring are not null when `Initialize` succeeds, since a failure
of either is passed on here. -/
theorem useCommandRing_supplied {hw : PowerOn} {writes writes' : List RegisterWrite}
    (h : useCommandRing hw c writes (c.cr.initializeRing 32 c.pool) = (.kSuccess, c', writes')) :
    c'.cr.buf ≠ nullptr ∧ c'.er.buf ≠ nullptr ∧ c'.er.erst ≠ nullptr := by
  refine ⟨(useCommandRing_cases h).1.nonnull, ?_⟩
  obtain ⟨⟨err₁, cr, pool₁⟩, hcr⟩ : ∃ result, c.cr.initializeRing 32 c.pool = result := ⟨_, rfl⟩
  rw [hcr] at h
  unfold useCommandRing at h
  dsimp only at h
  split at h
  · rename_i hne
    cases h
    exact absurd rfl hne
  · obtain ⟨⟨err₂, er, pool₂⟩, her⟩ : ∃ result,
      c.er.initializeEventRing 32 pool₁ = result := ⟨_, rfl⟩
    rw [her] at h
    unfold useEventRing at h
    dsimp only at h
    split at h
    · rename_i hne
      cases h
      exact absurd rfl hne
    · rename_i hsuccess
      rw [not_not.mp hsuccess] at her
      cases h
      exact EventRing.initializeEventRing_placed her

/-- **`Initialize`**, when it succeeds: of everything the controller uses, only scratchpad pages
can be at null, and only if the pool is used up. -/
theorem initializeController_supplied (hroomy : m.Roomy) {hw : PowerOn}
    {writes : List RegisterWrite} (hpool : c.pool.Sound m) (hnone : c.scratchpad = none)
    (h : initializeController hw c = .ok (.kSuccess, c', writes)) : c'.Supplied m := by
  unfold initializeController at h
  obtain ⟨⟨err₁, devmgr, pool⟩, hmanager⟩ : ∃ result,
    DeviceManager.initializeManager kDeviceSize c.pool = result := ⟨_, rfl⟩
  have hempty := (initializeManager_cases hmanager).2.1
  rw [hmanager] at h
  unfold useDeviceManager at h
  dsimp only at h
  split at h
  · rename_i hne
    cases h
    exact absurd rfl hne
  · rename_i hsuccess
    rw [not_not.mp hsuccess] at hmanager
    obtain ⟨hcontexts, hsound, hstarted⟩ := initializeManager_supplied hroomy hpool hmanager
    split at h
    · obtain ⟨c₁, hscratchpad, h⟩ := bind_eq_ok.mp h
      have hpages := initializeScratchpad_supplied
        (c := { c with devmgr := devmgr, pool := pool }) hroomy (BitVec.isLt _) hsound hstarted
        hnone hscratchpad
      obtain ⟨hsound₁, hgrows₁⟩ :=
        initializeScratchpad_memoryStep hroomy (BitVec.isLt _) hscratchpad hsound
      have hlast := Except.ok.inj h
      obtain ⟨hsound₂, hgrows₂⟩ := useCommandRing_memoryStep hroomy hlast hsound₁
      obtain ⟨hcr, her, herst⟩ := useCommandRing_supplied hlast
      obtain ⟨-, -, cr, er, pool₂, rfl⟩ := useCommandRing_cases hlast
      have hkept : c₁.devmgr.contextArray = devmgr.contextArray ∧
          c₁.devmgr.devices = devmgr.devices := by
        rcases initializeScratchpad_cases hscratchpad with rfl | ⟨pool₁, array, pages, rfl⟩
        · exact ⟨rfl, rfl⟩
        · exact ⟨rfl, rfl⟩
      refine ⟨hsound₂, ?_, ?_, ?_, hcr, her, herst, ?_⟩
      · exact Nat.lt_of_lt_of_le hstarted (Nat.le_trans hgrows₁.border hgrows₂.border)
      · rw [hkept.1]
        exact hcontexts
      · intro array pages hsome
        obtain ⟨harray, hshort⟩ := hpages array pages hsome
        exact ⟨harray, fun hnull => (hshort hnull).mono hsound₁ hsound₂ hgrows₂.border⟩
      · intro slot dev hdev
        rw [hkept.2, hempty slot] at hdev
        cases hdev
    · cases h

/-! ## Runs -/

/-- A structure that has an address holds the bytes there, as many as its extent says. -/
theorem bytesAt_subset_own {o : Owner} {p : Addr} {size : Nat}
    (h : c.extent o = some (p, size)) : bytesAt p size ⊆ c.own o := by
  intro x hx
  cases o with
  | contexts =>
      cases h
      exact hx
  | scratchpadArray =>
      obtain ⟨⟨array, pages⟩, hsome, heq⟩ := Option.map_eq_some_iff.mp h
      cases heq
      exact ⟨array, pages, hsome, hx⟩
  | scratchpadPage i =>
      obtain ⟨⟨array, pages⟩, hsome, hentry⟩ := Option.bind_eq_some_iff.mp h
      obtain ⟨page, hpage, heq⟩ := Option.map_eq_some_iff.mp hentry
      cases heq
      exact ⟨array, pages, hsome, _, hpage, hx⟩
  | commandRing =>
      cases h
      exact hx
  | eventRing =>
      cases h
      exact hx
  | segmentTable =>
      cases h
      exact hx
  | device slot part =>
      obtain ⟨dev, hdev, hpart⟩ := Option.bind_eq_some_iff.mp h
      refine ⟨dev, hdev, ?_⟩
      cases part with
      | object =>
          cases hpart
          exact hx
      | ring i =>
          obtain ⟨tr, htr, heq⟩ := Option.map_eq_some_iff.mp hpart
          cases heq
          exact ⟨tr, htr, hx⟩
      | driver q =>
          obtain ⟨d, hd, heq⟩ := Option.map_eq_some_iff.mp hpart
          cases heq
          exact ⟨by rw [hd]; exact Option.some_ne_none d, hx⟩

/-- The structures whose allocation the driver does not check, with their sizes. -/
inductive Unchecked : Owner → Nat → Prop
  | page (i : Nat) : Unchecked (.scratchpadPage i) 4096
  | ring (slot : Nat) (i : Fin 31) : Unchecked (.device slot (.ring i)) (16 * 32)

/-- **A structure at null** is one that the driver does not check, and the pool had no room
for it. -/
theorem Supplied.unchecked (h : c.Supplied m) (hconfined : c.Confined) {o : Owner} {size : Nat}
    (hnull : c.extent o = some (nullptr, size)) : Unchecked o size ∧ c.pool.Short size := by
  cases o with
  | contexts => exact absurd (congrArg Prod.fst (Option.some.inj hnull)) h.contexts
  | scratchpadArray =>
      obtain ⟨⟨array, pages⟩, hsome, heq⟩ := Option.map_eq_some_iff.mp hnull
      exact absurd (congrArg Prod.fst heq) (h.scratchpad array pages hsome).1
  | scratchpadPage i =>
      obtain ⟨⟨array, pages⟩, hsome, hentry⟩ := Option.bind_eq_some_iff.mp hnull
      obtain ⟨page, hpage, heq⟩ := Option.map_eq_some_iff.mp hentry
      cases heq
      exact ⟨.page i, (h.scratchpad array pages hsome).2 (List.mem_of_getElem? hpage)⟩
  | commandRing => exact absurd (congrArg Prod.fst (Option.some.inj hnull)) h.commandRing
  | eventRing => exact absurd (congrArg Prod.fst (Option.some.inj hnull)) h.eventRing
  | segmentTable => exact absurd (congrArg Prod.fst (Option.some.inj hnull)) h.segmentTable
  | device slot part =>
      obtain ⟨dev, hdev, hpart⟩ := Option.bind_eq_some_iff.mp hnull
      cases part with
      | object =>
          exact absurd (congrArg Prod.fst (Option.some.inj hpart)) (hconfined slot dev hdev).placed
      | ring i =>
          obtain ⟨tr, htr, heq⟩ := Option.map_eq_some_iff.mp hpart
          obtain ⟨hsize, hshort⟩ := (h.devices slot dev hdev).rings i tr htr
          obtain ⟨hbuf, rfl⟩ := Prod.mk.inj heq
          rw [hsize]
          exact ⟨.ring slot i, hshort hbuf⟩
      | driver q =>
          obtain ⟨d, hd, heq⟩ := Option.map_eq_some_iff.mp hpart
          exact absurd (congrArg Prod.fst heq) ((hconfined slot dev hdev).drivers q d hd).1

end Steps

/-- Every structure that is not at null lies in the pool below `alloc_ptr`, and no two of them
share a byte. -/
structure Isolated (m : MemoryPool) (c : Controller) : Prop where
  inside : ∀ (o : Owner) (p : Addr) (size : Nat), c.extent o = some (p, size) → p ≠ nullptr →
    Set.Ico p.toNat (p.toNat + size) ⊆
      Set.Ico m.addr.toNat (min c.pool.allocPtr.toNat m.limit)
  disjoint : ∀ (o o' : Owner) (p p' : Addr) (size size' : Nat), o ≠ o' →
    c.extent o = some (p, size) → c.extent o' = some (p', size') → p ≠ nullptr → p' ≠ nullptr →
    Disjoint (Set.Ico p.toNat (p.toNat + size)) (Set.Ico p'.toNat (p'.toNat + size'))

/-- No structure is at null. -/
def Complete (c : Controller) : Prop := ∀ o size, c.extent o ≠ some (nullptr, size)

section Run

variable {Allowed : Surroundings → Controller → Trb → Prop} {m : MemoryPool} {hw : PowerOn}
  {maxPorts : BitVec 8} {c₀ c : Controller} {err : Error} {writes : List RegisterWrite}

/-- In every state of a run the structures that are not null are in the pool and apart, whatever
`Initialize` has returned. -/
theorem run_isolated (hroomy : m.Roomy)
    (hinit : initializeController hw (Controller.new maxPorts (Pool.init m)) =
      .ok (err, c₀, writes))
    (hrun : ReflTransGen (Step Allowed) c₀ c) : c.Isolated m := by
  have hapart := run_apart hroomy hinit hrun
  have hholds : ∀ {o : Owner} {p : Addr} {size : Nat}, c.extent o = some (p, size) →
      p ≠ nullptr → Set.Ico p.toNat (p.toNat + size) ⊆ c.own o :=
    fun hextent hp x hx => bytesAt_subset_own hextent ⟨hp, hx⟩
  constructor
  · intro o p size hextent hp
    exact (hholds hextent hp).trans (hapart.inside o)
  · intro o o' p p' size size' hne hextent hextent' hp hp'
    exact (hapart.disjoint hne).mono (hholds hextent hp) (hholds hextent' hp')

/-- **The structures have memory of their own.**  In every run, whatever events the controller
reports and in whatever order, every structure of the driver lies in the pool below
`alloc_ptr`, and no two of them share a byte, but for those at address null.  If `Initialize`
has succeeded, only a page of the scratchpad or the TRBs of a transfer ring can be at null,
and then the pool has fewer bytes left than they need. -/
theorem run_ownsApart (hroomy : m.Roomy)
    (hinit : initializeController hw (Controller.new maxPorts (Pool.init m)) =
      .ok (err, c₀, writes))
    (hrun : ReflTransGen (Step Allowed) c₀ c) :
    c.Isolated m ∧ (err = .kSuccess → ∀ o size, c.extent o = some (nullptr, size) →
      Unchecked o size ∧ m.limit < c.pool.allocPtr.toNat + size) := by
  refine ⟨run_isolated hroomy hinit hrun, fun hsuccess o size hnull => ?_⟩
  rw [hsuccess] at hinit
  have hstart : c₀.Supplied m :=
    initializeController_supplied hroomy (Pool.sound_init m) rfl hinit
  have hsupplied : c.Supplied m :=
    run_induction (fun c c' => c.Supplied m → c'.Supplied m) (fun _ h => h)
      (fun hfirst hsecond h => hsecond (hfirst h)) (Effect.supplied hroomy) hrun hstart
  obtain ⟨hunchecked, hshort⟩ := hsupplied.unchecked (run_confined hinit hrun) hnull
  have hborder : c.pool.border ≤ c.pool.allocPtr.toNat := Nat.min_le_left _ _
  unfold Pool.Short at hshort
  rw [hsupplied.sound.memoryPool] at hshort
  exact ⟨hunchecked, by omega⟩

end Run

/-- The sample driver has addressed a device, and more than a page is left: every structure has
memory of its own. -/
theorem run_ownsApart_sample :
    (performed (fun _ _ _ => True) sampleController addressActions).Isolated samplePool ∧
      (performed (fun _ _ _ => True) sampleController addressActions).Complete := by
  obtain ⟨writes, hinit⟩ := sampleController_initialized
  obtain ⟨hisolated, hmissing⟩ := run_ownsApart (by unfold MemoryPool.Roomy; decide) hinit
    (performed_run (fun _ _ _ => True) sampleController addressActions)
  have hroom : (performed (fun _ _ _ => True) sampleController
      addressActions).pool.allocPtr.toNat + 4096 ≤ samplePool.limit := by decide +kernel
  refine ⟨hisolated, fun o size hnull => ?_⟩
  obtain ⟨hunchecked, hshort⟩ := hmissing rfl o size hnull
  cases hunchecked with
  | page i => omega
  | ring slot i => omega

end Controller

end Mikanos.Xhci
