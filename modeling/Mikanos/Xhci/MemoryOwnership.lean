import Mikanos.Xhci.ControllerEffects
import Mikanos.Xhci.DeviceMemory
import Mikanos.Xhci.ScratchpadBuffers

/-!
# Who holds the memory pool

The controller reads and writes memory on its own: the array of context pointers, the
scratchpad array and its pages, the command ring, the event ring and its segment table,
and for each device the contexts in its object, its transfer rings and the buffers in its
object and in the objects of its class drivers.  All of this comes from the memory pool, in
an order that the hardware determines with its events.

`Controller.own` is what each of these structures holds.  Every call of the driver is a
`MemoryStep`: the structures hold afterwards what they held before and memory that has just
been handed out.  So in every run they stay apart from each other (`run_apart`), and
what has been handed out stays with the structure it was handed out for
(`run_keepsOwners`).  A structure for which the driver got no memory holds nothing here; which
structures that can be is a question of its own.
-/

namespace Mikanos.Xhci

open Relation Mikanos.Usb

/-- The structures in the memory pool. -/
inductive Owner where
  | contexts
  | scratchpadArray
  | scratchpadPage (i : Nat)
  | commandRing
  | eventRing
  | segmentTable
  | device (slot : Nat) (part : DevicePart)

/-- What the pages of a scratchpad array hold. -/
def pagesOwn (pages : List Addr) (i : Nat) : Set Nat :=
  {x | ∃ page, pages[i]? = some page ∧ x ∈ bytesAt page 4096}

namespace Controller

/-- What each structure holds. -/
def own (c : Controller) : Owner → Set Nat
  | .contexts => bytesAt c.devmgr.contextArray (8 * (c.devmgr.maxSlots + 1))
  | .scratchpadArray =>
      {x | ∃ array pages, c.scratchpad = some (array, pages) ∧ x ∈ bytesAt array (8 * pages.length)}
  | .scratchpadPage i =>
      {x | ∃ array pages, c.scratchpad = some (array, pages) ∧ x ∈ pagesOwn pages i}
  | .commandRing => c.cr.bytes
  | .eventRing => bytesAt c.er.buf (16 * c.er.bufSize)
  | .segmentTable => bytesAt c.er.erst 16
  | .device slot part => {x | ∃ dev, c.devmgr.devices slot = some dev ∧ x ∈ dev.own part}

/-- What a call does to the pool and to who holds it. -/
def MemoryStep (m : MemoryPool) (c c' : Controller) : Prop :=
  DrawsMemory m c.own c.pool c'.own c'.pool

section Steps

variable {m : MemoryPool} {env : Surroundings} {c c' c'' : Controller} {slotId : BitVec 8}
  {dev dev' : Device} {pool' : Pool} {err : Error}

theorem MemoryStep.refl (m : MemoryPool) (c : Controller) : MemoryStep m c c :=
  DrawsMemory.refl m c.own c.pool

/-- One call after the other. -/
theorem MemoryStep.trans (h : MemoryStep m c c') (h' : MemoryStep m c' c'') : MemoryStep m c c'' :=
  DrawsMemory.trans h h'

/-- A call that moves no structure is a step of the memory, since only the pointers to
structures count. -/
theorem MemoryStep.of_places (h : KeepsPlaces c c') : MemoryStep m c c' := by
  unfold MemoryStep
  rw [h.pool]
  refine .of_subset fun o => ?_
  cases o with
  | contexts => rw [own, h.contextArray, h.maxSlots, own]
  | scratchpadArray => rw [own, h.scratchpad, own]
  | scratchpadPage i => rw [own, h.scratchpad, own]
  | commandRing => rw [own, Ring.bytes, h.commandRing.1, h.commandRing.2, own, Ring.bytes]
  | eventRing => rw [own, h.eventRing, h.eventRingSize, own]
  | segmentTable => rw [own, h.segmentTable, own]
  | device slot part => rw [own, h.devices, own]

/-- What the owners of a slot hold is what the parts of the device in that slot hold. -/
theorem own_device {i : Nat} (hdev : c.devmgr.devices i = some dev) :
    c.own ∘ Owner.device i = dev.own := by
  funext part
  ext x
  change (∃ dev', c.devmgr.devices i = some dev' ∧ x ∈ dev'.own part) ↔ _
  rw [hdev]
  constructor
  · rintro ⟨dev', hdev', hx⟩
    cases hdev'
    exact hx
  · exact fun hx => ⟨dev, rfl, hx⟩

/-- What a call does with a device and the pool, it does with the driver as a whole: no other
owner gains anything. -/
theorem setDevice_memoryStep (hdev : c.devmgr.devices slotId.toNat = some dev)
    (h : DrawsMemory m dev.own c.pool dev'.own pool') :
    MemoryStep m c ({ c with pool := pool' }.setDevice slotId dev') := by
  have hset : ({ c with pool := pool' }.setDevice slotId dev').devmgr.devices slotId.toNat =
      some dev' := DeviceManager.devices_setDevice_self _ _ _
  refine DrawsMemory.lift (Owner.device slotId.toNat) ?_ fun o ho => ?_
  · rw [own_device hdev, own_device hset]
    exact h
  · cases o with
    | device slot part =>
        have hslot : slot ≠ slotId.toNat := fun heq => ho part (by rw [heq])
        rintro x ⟨dev₁, hdev₁, hx⟩
        rcases DeviceManager.devices_setDevice_cases hdev₁ with ⟨heq, -⟩ | ⟨-, hdev₁⟩
        · exact absurd heq hslot
        · exact ⟨dev₁, hdev₁, hx⟩
    | _ => exact subset_rfl

/-- `AllocDevice` draws memory for the object of the device, in a slot that had none, or changes
nothing. -/
theorem allocDevice_memoryStep (hroomy : m.Roomy) {devmgr : DeviceManager}
    (h : c.devmgr.allocDevice slotId c.pool = .ok (err, devmgr, pool')) :
    MemoryStep m c { c with devmgr := devmgr, pool := pool' } := by
  unfold DeviceManager.allocDevice at h
  split at h
  · cases h
    exact .refl m c
  · split at h
    · cases h
      exact .refl m c
    · rename_i hfree
      obtain ⟨block, hblock⟩ : ∃ block,
        c.pool.allocArray Device.sizeOf 1 64 4096 = block := ⟨_, rfl⟩
      rw [hblock] at h
      obtain ⟨rfl, rfl⟩ := placeDevice_pool h
      refine DrawsMemory.block hroomy modest_line modest_page (by decide) hblock
        (.device slotId.toNat .object) ?_ fun o ho => ?_
      · rintro x ⟨dev, hdev, hx⟩
        rw [DeviceManager.devices_setDevice_self] at hdev
        cases hdev
        exact Or.inr hx
      · cases o with
        | device slot part =>
            rintro x ⟨dev, hdev, hx⟩
            rcases DeviceManager.devices_setDevice_cases hdev with ⟨rfl, rfl⟩ | ⟨-, hdev⟩
            · -- The new device has no rings and no drivers.
              cases part with
              | object => exact absurd rfl ho
              | ring i =>
                  obtain ⟨tr, htr, -⟩ := hx
                  cases htr
              | driver p => exact absurd rfl hx.1
            · exact ⟨dev, hdev, hx⟩
        | _ => exact subset_rfl

/-- The hardware writes into the structures, and to none of the pointers to them, so nobody's
memory changes. -/
theorem hardware_memoryStep (mem : Nat → Trb) (interrupter : InterrupterRegisterSet)
    (contexts : Nat → SlotContext) :
    MemoryStep m c (c.hardware mem interrupter contexts) := by
  refine DrawsMemory.of_subset fun o => ?_
  cases o with
  | device slot part =>
      rintro x ⟨dev', hdev', hx⟩
      obtain ⟨dev, hdev, rfl⟩ := Option.map_eq_some_iff.mp hdev'
      have hsame : Device.KeepsMemory dev { dev with slotContext := contexts slot } :=
        .of_fields rfl rfl rfl
      exact ⟨dev, hdev, hsame part hx⟩
  | _ => exact subset_rfl

/-- **One effect** on the driver. -/
theorem Effect.memoryStep (hroomy : m.Roomy) (h : Effect c c') : MemoryStep m c c' := by
  cases h with
  | places hplaces => exact .of_places hplaces
  | hardware mem interrupter contexts => exact hardware_memoryStep mem interrupter contexts
  | device hdev hcall => exact setDevice_memoryStep hdev (hcall.draws hroomy)
  | newDevice hcall => exact allocDevice_memoryStep hroomy hcall

/-! ## Starting -/

/-- The device manager takes two arrays.  The first is for the driver alone, and the second,
which the controller reads, is the one that is held. -/
theorem initializeManager_memoryStep (hroomy : m.Roomy) {devmgr : DeviceManager}
    (h : DeviceManager.initializeManager kDeviceSize c.pool = (err, devmgr, pool')) :
    MemoryStep m c { c with devmgr := devmgr, pool := pool' } := by
  unfold DeviceManager.initializeManager at h
  obtain ⟨block, hblock⟩ : ∃ block,
    c.pool.allocArray 8 (BitVec.ofNat 64 (kDeviceSize + 1)) 0 0 = block := ⟨_, rfl⟩
  rw [hblock] at h
  have harray : DrawsMemory m c.own c.pool c.own block.2 :=
    .unused hroomy modest_zero modest_zero (by decide) hblock
  unfold DeviceManager.useDeviceArray at h
  split at h
  · cases h
    refine DrawsMemory.trans harray (.of_subset fun o => ?_)
    cases o with
    | contexts =>
        rw [own, bytesAt_nullptr]
        exact Set.empty_subset _
    | device slot part =>
        rintro x ⟨dev, hdev, -⟩
        cases hdev
    | _ => exact subset_rfl
  · obtain ⟨block', hblock'⟩ : ∃ block', block.2.allocArray 8
      (BitVec.ofNat 64 (kDeviceSize + 1)) 64 4096 = block' := ⟨_, rfl⟩
    rw [hblock'] at h
    have hparts : devmgr = ⟨kDeviceSize, fun _ => none, fun _ => nullptr, block'.1⟩ ∧
        pool' = block'.2 := by
      unfold DeviceManager.useContextArray at h
      dsimp only at h
      split at h
      · cases h
        exact ⟨rfl, rfl⟩
      · cases h
        exact ⟨rfl, rfl⟩
    obtain ⟨rfl, rfl⟩ := hparts
    refine DrawsMemory.trans harray
      (.block hroomy modest_line modest_page (by decide) hblock' .contexts ?_ fun o ho => ?_)
    · exact Set.subset_union_right
    · cases o with
      | contexts => exact absurd rfl ho
      | device slot part =>
          rintro x ⟨dev, hdev, -⟩
          cases hdev
      | _ => exact subset_rfl

/-- The loop enters as many pages as the controller asks for, null or not. -/
theorem length_scratchpadPages (pool : Pool) (n : Nat) : (scratchpadPages pool n).1.length = n := by
  induction n with
  | zero => rfl
  | succ n ih =>
      unfold scratchpadPages
      dsimp only
      rw [List.length_append, List.length_singleton, ih]

/-- One more scratchpad page, which may be null and then holds nothing of the pool. -/
theorem page_draws (hroomy : m.Roomy) {pool : Pool} (pages : List Addr) {block : Addr × Pool}
    (hblock : pool.allocMem 4096 4096 4096 = block) :
    DrawsMemory m (pagesOwn pages) pool (pagesOwn (pages ++ [block.1])) block.2 := by
  refine .block hroomy modest_page modest_page (by decide) hblock pages.length ?_ fun i hi => ?_
  · have hsize : (4096 : BitVec 64).toNat = 4096 := rfl
    rw [hsize]
    rintro x ⟨page, hpage, hx⟩
    rw [List.getElem?_concat_length] at hpage
    cases hpage
    exact Or.inr hx
  · rintro x ⟨page, hpage, hx⟩
    have hlen := (List.getElem?_eq_some_iff.mp hpage).1
    rw [List.length_append, List.length_singleton] at hlen
    rw [List.getElem?_append_left (by omega)] at hpage
    exact ⟨page, hpage, hx⟩

/-- The scratchpad pages are drawn one after the other, by induction on their number. -/
theorem scratchpadPages_draws (hroomy : m.Roomy) (pool : Pool) (n : Nat) :
    DrawsMemory m (pagesOwn []) pool (pagesOwn (scratchpadPages pool n).1)
      (scratchpadPages pool n).2 := by
  induction n with
  | zero => exact .refl m _ _
  | succ n ih =>
      obtain ⟨placed, hplaced⟩ : ∃ placed, scratchpadPages pool n = placed := ⟨_, rfl⟩
      obtain ⟨block, hblock⟩ : ∃ block, placed.2.allocMem 4096 4096 4096 = block := ⟨_, rfl⟩
      rw [hplaced] at ih
      rw [scratchpadPages_succ hplaced hblock]
      exact ih.trans (page_draws hroomy placed.1 hblock)

/-- `sizeof(void*) * max_scratchpad_buffers` does not wrap. -/
theorem toNat_arraySize {n : Nat} (hn : n < 2 ^ 16) :
    (8 * BitVec.ofNat 64 n : BitVec 64).toNat = 8 * n := by
  have h8 : (8 : BitVec 64).toNat = 8 := rfl
  rw [BitVec.toNat_mul, BitVec.toNat_ofNat, h8]
  omega

/-- The scratchpad step draws the array first and then its pages, each for an owner of its own.
-/
theorem initializeScratchpad_memoryStep (hroomy : m.Roomy) {n : Nat} (hn : n < 2 ^ 16)
    (h : c.initializeScratchpad n = .ok c') : MemoryStep m c c' := by
  unfold initializeScratchpad at h
  split at h
  · obtain ⟨block, hblock⟩ : ∃ block,
      c.pool.allocArray 8 (BitVec.ofNat 64 n) 64 4096 = block := ⟨_, rfl⟩
    rw [hblock] at h
    unfold useScratchpadArray at h
    split at h
    · cases h
    · have hlength := length_scratchpadPages block.2 n
      have hpages := scratchpadPages_draws hroomy block.2 n
      generalize scratchpadPages block.2 n = placed at h hlength hpages
      cases h
      have hsize := toNat_arraySize hn
      -- the state with the array and no pages
      let c₁ : Controller := { c with
        pool := block.2
        scratchpad := some (block.1, List.replicate n nullptr) }
      have hempty : ∀ i, c₁.own (.scratchpadPage i) = ∅ := by
        refine fun i => Set.eq_empty_of_forall_notMem fun x => ?_
        rintro ⟨array, pages, hsome, page, hpage, hx⟩
        cases hsome
        rw [List.getElem?_replicate] at hpage
        split at hpage
        · cases hpage
          exact hx.1 rfl
        · cases hpage
      have harray : MemoryStep m c c₁ := by
        refine DrawsMemory.block hroomy modest_line modest_page (by omega) hblock
          .scratchpadArray ?_ fun o ho => ?_
        · rintro x ⟨array, pages, hsome, hx⟩
          cases hsome
          rw [List.length_replicate] at hx
          rw [hsize]
          exact Or.inr hx
        · cases o with
          | scratchpadArray => exact absurd rfl ho
          | scratchpadPage i =>
              rw [hempty i]
              exact Set.empty_subset _
          | _ => exact subset_rfl
      refine harray.trans (DrawsMemory.lift Owner.scratchpadPage ?_ fun o ho => ?_)
      · have hnone :
            DrawsMemory m (c₁.own ∘ Owner.scratchpadPage) block.2 (pagesOwn []) block.2 := by
          refine .of_subset fun i => ?_
          rintro x ⟨page, hpage, -⟩
          cases hpage
        refine hnone.trans (hpages.trans (.of_subset fun i => ?_))
        rintro x ⟨array, pages, hsome, hx⟩
        cases hsome
        exact hx
      · cases o with
        | scratchpadPage i => exact absurd rfl (ho i)
        | scratchpadArray =>
            rintro x ⟨array, pages, hsome, hx⟩
            cases hsome
            rw [hlength] at hx
            exact ⟨_, _, rfl, by rw [List.length_replicate]; exact hx⟩
        | _ => exact subset_rfl
  · cases h
    exact .refl m c

/-- The segment table of the event ring is drawn for the ring, apart from the segment it
describes. -/
theorem useTable_memoryStep (hroomy : m.Roomy) {block : Addr × Pool}
    (hblock : c.pool.allocArray 16 1 64 (64 * 1024) = block) {er : EventRing}
    (h : c.er.useTable block = (err, er, pool')) :
    MemoryStep m c { c with er := er, pool := pool' } := by
  have hparts : er.buf = c.er.buf ∧ er.bufSize = c.er.bufSize ∧ er.erst = block.1 ∧
      pool' = block.2 := by
    unfold EventRing.useTable at h
    dsimp only at h
    split at h
    · cases h
      exact ⟨rfl, rfl, rfl, rfl⟩
    · cases h
      exact ⟨rfl, rfl, rfl, rfl⟩
  obtain ⟨hbuf, hsize, herst, rfl⟩ := hparts
  refine DrawsMemory.block hroomy modest_line modest_segment (by decide) hblock .segmentTable ?_
    fun o ho => ?_
  · rw [own, herst]
    exact Set.subset_union_right
  · cases o with
    | segmentTable => exact absurd rfl ho
    | eventRing =>
        rw [own, hbuf, hsize]
        exact subset_rfl
    | _ => exact subset_rfl

/-- The event ring takes its segment and then the table that describes it, and only the event
ring gains by it. -/
theorem initializeEventRing_memoryStep (hroomy : m.Roomy) {er : EventRing}
    (h : c.er.initializeEventRing 32 c.pool = (err, er, pool')) :
    MemoryStep m c { c with er := er, pool := pool' } := by
  unfold EventRing.initializeEventRing at h
  obtain ⟨block, hblock⟩ : ∃ block,
    c.pool.allocArray 16 (BitVec.ofNat 64 32) 64 (64 * 1024) = block := ⟨_, rfl⟩
  rw [hblock] at h
  have hsegment : ∀ er₁ : EventRing, er₁.buf = block.1 → er₁.bufSize = 32 → er₁.erst = c.er.erst →
      MemoryStep m c { c with er := er₁, pool := block.2 } := by
    intro er₁ hbuf hsize herst
    refine DrawsMemory.block hroomy modest_line modest_segment (by decide) hblock .eventRing ?_
      fun o ho => ?_
    · rw [own, hbuf, hsize]
      exact Set.subset_union_right
    · cases o with
      | eventRing => exact absurd rfl ho
      | segmentTable =>
          rw [own, herst]
          exact subset_rfl
      | _ => exact subset_rfl
  unfold EventRing.useBlock at h
  dsimp only at h
  split at h
  · cases h
    exact hsegment _ rfl rfl rfl
  · obtain ⟨block', hblock'⟩ : ∃ block', block.2.allocArray 16 1 64 (64 * 1024) = block' := ⟨_, rfl⟩
    rw [hblock'] at h
    obtain ⟨er₁, htable, hbuf, hsize, herst⟩ : ∃ er₁ : EventRing,
        er₁.useTable block' = (err, er, pool') ∧ er₁.buf = block.1 ∧ er₁.bufSize = 32 ∧
          er₁.erst = c.er.erst := ⟨_, h, rfl, rfl, rfl⟩
    exact (hsegment er₁ hbuf hsize herst).trans
      (useTable_memoryStep (c := { c with er := er₁, pool := block.2 }) hroomy hblock' htable)

/-- The command ring takes its TRBs, and after it the event ring its own, if the first has
succeeded. -/
theorem useCommandRing_memoryStep (hroomy : m.Roomy) {hw : PowerOn}
    {writes writes' : List RegisterWrite}
    (h : useCommandRing hw c writes (c.cr.initializeRing 32 c.pool) = (err, c', writes')) :
    MemoryStep m c c' := by
  obtain ⟨⟨err₁, cr, pool⟩, hcr⟩ : ∃ result, c.cr.initializeRing 32 c.pool = result := ⟨_, rfl⟩
  rw [hcr] at h
  have hring : MemoryStep m c { c with cr := cr, pool := pool } := by
    refine Device.initializeRing_draws hroomy (by decide) hcr .commandRing ?_ fun o ho => ?_
    · exact Set.subset_union_right
    · cases o with
      | commandRing => exact absurd rfl ho
      | _ => exact subset_rfl
  unfold useCommandRing at h
  dsimp only at h
  split at h
  · cases h
    exact hring
  · obtain ⟨⟨err₂, er, pool₂⟩, her⟩ : ∃ result,
      c.er.initializeEventRing 32 pool = result := ⟨_, rfl⟩
    rw [her] at h
    have hevents := hring.trans
      (initializeEventRing_memoryStep (c := { c with cr := cr, pool := pool }) hroomy her)
    unfold useEventRing at h
    dsimp only at h
    split at h
    · cases h
      exact hevents
    · cases h
      exact hevents

/-- **`Initialize`**, whatever its result, is a step of the memory: what it has taken before a
failure is taken, and by one owner each. -/
theorem initializeController_memoryStep (hroomy : m.Roomy) {hw : PowerOn}
    {writes : List RegisterWrite} (h : initializeController hw c = .ok (err, c', writes)) :
    MemoryStep m c c' := by
  unfold initializeController at h
  obtain ⟨⟨err₁, devmgr, pool⟩, hmanager⟩ : ∃ result,
    DeviceManager.initializeManager kDeviceSize c.pool = result := ⟨_, rfl⟩
  rw [hmanager] at h
  have hfirst := initializeManager_memoryStep hroomy hmanager
  unfold useDeviceManager at h
  dsimp only at h
  split at h
  · cases h
    exact hfirst
  · split at h
    · obtain ⟨c₁, hscratchpad, h⟩ := bind_eq_ok.mp h
      have hsecond := hfirst.trans
        (initializeScratchpad_memoryStep hroomy (BitVec.isLt _) hscratchpad)
      exact hsecond.trans (useCommandRing_memoryStep hroomy (Except.ok.inj h))
    · cases h

/-! ## Runs -/

/-- **A whole run** draws memory as its effects do, by the rule for runs. -/
theorem run_memoryStep {Allowed : Surroundings → Controller → Trb → Prop} (hroomy : m.Roomy)
    (hrun : ReflTransGen (Step Allowed) c c') : MemoryStep m c c' :=
  run_induction (MemoryStep m) (.refl m) .trans (Effect.memoryStep hroomy) hrun

/-- Every structure has memory of its own in the part of the pool that has been handed out. -/
structure Owned (m : MemoryPool) (c : Controller) : Prop where
  sound : c.pool.Sound m
  apart : Arena.Apart m.addr.toNat c.pool.border c.own

/-- The invariant of the holdings is kept by every call, whatever it takes: that is what owners
staying apart comes to here. -/
theorem Owned.memoryStep (h : Owned m c) (hstep : MemoryStep m c c') : Owned m c' := by
  obtain ⟨hsound, hgrows⟩ := hstep h.sound
  have hborder : c.pool.border = min c.pool.allocPtr.toNat m.limit := by
    rw [Pool.border, h.sound.memoryPool]
  have hbase : m.addr.toNat ≤ c.pool.border := by
    rw [hborder]
    exact Nat.le_min.mpr ⟨h.sound.base, Nat.le_add_right _ _⟩
  exact ⟨hsound, h.apart.grows hbase hgrows⟩

/-- Before `Initialize` all pointers are null, so nobody holds anything of the pool. -/
theorem owned_new (maxPorts : BitVec 8) (m : MemoryPool) :
    Owned m (Controller.new maxPorts (Pool.init m)) where
  sound := Pool.sound_init m
  apart := by
    refine .of_empty fun o => Set.eq_empty_of_forall_notMem fun x hx => ?_
    cases o with
    | contexts => exact hx.1 rfl
    | scratchpadArray =>
        obtain ⟨array, pages, hsome, -⟩ := hx
        cases hsome
    | scratchpadPage i =>
        obtain ⟨array, pages, hsome, -⟩ := hx
        cases hsome
    | commandRing => exact hx.1 rfl
    | eventRing => exact hx.1 rfl
    | segmentTable => exact hx.1 rfl
    | device slot part =>
        obtain ⟨dev, hdev, -⟩ := hx
        cases hdev

end Steps

section Run

variable {Allowed : Surroundings → Controller → Trb → Prop} {m : MemoryPool} {hw : PowerOn}
  {maxPorts : BitVec 8} {c₀ c c' : Controller} {err : Error} {writes : List RegisterWrite}

/-- Every state of a run after `Initialize`. -/
theorem run_owned (hroomy : m.Roomy)
    (hinit : initializeController hw (Controller.new maxPorts (Pool.init m)) =
      .ok (err, c₀, writes))
    (hrun : ReflTransGen (Step Allowed) c₀ c) : Owned m c :=
  ((owned_new maxPorts m).memoryStep (initializeController_memoryStep hroomy hinit)).memoryStep
    (run_memoryStep hroomy hrun)

/-- **The structures never overlap.**  In every run, whatever events the controller reports and
in whatever order, what the structures hold lies in the pool below `alloc_ptr`, and no two of
them share a byte. -/
theorem run_apart (hroomy : m.Roomy)
    (hinit : initializeController hw (Controller.new maxPorts (Pool.init m)) =
      .ok (err, c₀, writes))
    (hrun : ReflTransGen (Step Allowed) c₀ c) :
    Arena.Apart m.addr.toNat (min c.pool.allocPtr.toNat m.limit) c.own := by
  have howned := run_owned hroomy hinit hrun
  have hapart := howned.apart
  rw [Pool.border, howned.sound.memoryPool] at hapart
  exact hapart

/-- **Memory never changes hands.** A byte that a structure has used at some time of a run
belongs to no other structure later, since nothing is freed and each block lies above all blocks
before it. -/
theorem run_keepsOwners (hroomy : m.Roomy)
    (hinit : initializeController hw (Controller.new maxPorts (Pool.init m)) =
      .ok (err, c₀, writes))
    (hrun : ReflTransGen (Step Allowed) c₀ c) (hlater : ReflTransGen (Step Allowed) c c')
    {o o' : Owner} {x : Nat} (hx : x ∈ c.own o) (hx' : x ∈ c'.own o') : o' = o := by
  have howned := run_owned hroomy hinit hrun
  obtain ⟨-, hgrows⟩ := run_memoryStep hroomy hlater howned.sound
  have hbefore : x ∈ c.own o' := hgrows.mem_of_lt hx' (howned.apart.inside o hx).2
  by_contra hne
  exact Set.disjoint_left.mp (howned.apart.disjoint hne) hbefore hx

end Run

/-- A port is reset and its slot enabled, then a device is addressed. -/
def addressActions : List Action :=
  [.configurePort (portsShow fun _ => 1) 1,
    .event (portsShow fun _ => 0x200003) (portStatusChangeEvent 1),
    .event (portsShow fun _ => 0x200003) (commandCompletionEvent sampleController.cr.buf 1 1)]

/-- The command ring of the sample driver is at 0x200140, and the device that is addressed
later is elsewhere. -/
theorem run_keepsOwners_sample : 0x200140 ∈ sampleController.own .commandRing ∧
    0x200140 ∉ (performed (fun _ _ _ => True) sampleController addressActions).own
      (.device 1 .object) := by
  have hbuf : sampleController.cr.buf = 0x200140 := by decide +kernel
  have hsize : sampleController.cr.bufSize = 32 := by decide +kernel
  have hring : 0x200140 ∈ sampleController.own .commandRing := by
    rw [own, Ring.bytes, hbuf, hsize]
    exact ⟨by decide, by decide, by decide⟩
  refine ⟨hring, fun hdevice => ?_⟩
  obtain ⟨writes, hinit⟩ := sampleController_initialized
  have hsame := run_keepsOwners (by unfold MemoryPool.Roomy; decide) hinit .refl
    (performed_run (fun _ _ _ => True) sampleController addressActions) hring hdevice
  cases hsame

end Controller

end Mikanos.Xhci
