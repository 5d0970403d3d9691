import Mikanos.Usb.PoolHoldings
import Mikanos.Xhci.DeviceEffects

/-!
# The memory of a device

What a device holds of the memory pool: its own object, which contains the two contexts and
the buffer for descriptors, the TRBs of its transfer rings and the objects of its class
drivers, which contain the buffers for reports.

Two effects take memory, a new transfer ring and a new class driver.  After the others
nothing is held that was not held before (`KeepsMemory`).  So every call of the layer is a
`DrawsMemory` (`Effects.draws`).
-/

namespace Mikanos.Xhci

open Mikanos.Usb

/-- The TRBs of a ring. -/
def Ring.bytes (r : Ring) : Set Nat := bytesAt r.buf (16 * r.bufSize)

/-- The parts of a device that have memory of their own. -/
inductive DevicePart where
  | object
  | ring (i : Fin 31)
  | driver (p : Addr)

/-- What a part of a device holds. -/
def Device.own (dev : Device) : DevicePart → Set Nat
  | .object => bytesAt dev.self Device.sizeOf.toNat
  | .ring i => {x | ∃ tr, dev.transferRings i = some tr ∧ x ∈ tr.bytes}
  | .driver p => {x | dev.drivers p ≠ none ∧ x ∈ bytesAt p Device.hidSizeOf.toNat}

/-- `Push` writes to the TRBs that are there. -/
theorem Ring.push_bytes {r r' : Ring} {trb : Trb} {p : Addr} (h : r.push trb = .ok (p, r')) :
    r'.bytes = r.bytes := by
  obtain ⟨hbuf, hsize⟩ := Ring.push_place h
  rw [Ring.bytes, hbuf, hsize, Ring.bytes]

namespace Device

/-- Nothing is held that was not held before. -/
def KeepsMemory (dev dev' : Device) : Prop := ∀ part, dev'.own part ⊆ dev.own part

theorem KeepsMemory.refl (dev : Device) : KeepsMemory dev dev := fun _ => subset_rfl

theorem KeepsMemory.trans {a b c : Device} (hab : KeepsMemory a b) (hbc : KeepsMemory b c) :
    KeepsMemory a c := fun part => (hbc part).trans (hab part)

/-- The object, the rings and the drivers are what holds memory. -/
theorem KeepsMemory.of_fields {dev dev' : Device} (hself : dev'.self = dev.self)
    (hrings : dev'.transferRings = dev.transferRings) (hdrivers : dev'.drivers = dev.drivers) :
    KeepsMemory dev dev' := by
  intro part
  cases part with
  | object => rw [own, hself, own]
  | ring i => rw [own, hrings, own]
  | driver p => rw [own, hdrivers, own]

/-- A new ring holds the bytes of its TRBs, and nothing of the ring that was there before. -/
theorem own_setRing_self (dev : Device) (i : Fin 31) (tr : Ring) :
    (dev.setRing i (some tr)).own (.ring i) = tr.bytes := by
  ext x
  change (∃ tr', Function.update dev.transferRings i (some tr) i = some tr' ∧ x ∈ tr'.bytes) ↔ _
  rw [Function.update_self]
  constructor
  · rintro ⟨tr', htr', hx⟩
    cases htr'
    exact hx
  · exact fun hx => ⟨tr, rfl, hx⟩

/-- Without a ring there is nothing to hold. -/
theorem own_setRing_none (dev : Device) (i : Fin 31) : (dev.setRing i none).own (.ring i) = ∅ := by
  refine Set.eq_empty_of_forall_notMem fun x => ?_
  rintro ⟨tr, htr, -⟩
  change Function.update dev.transferRings i none i = some tr at htr
  rw [Function.update_self] at htr
  cases htr

/-- The other parts of the device, its drivers and its other rings, hold the same bytes as
before a new ring. -/
theorem own_setRing_of_ne (dev : Device) {i : Fin 31} (tr : Option Ring) {part : DevicePart}
    (hpart : part ≠ .ring i) : (dev.setRing i tr).own part = dev.own part := by
  cases part with
  | object => rfl
  | driver p => rfl
  | ring j =>
      have hj : j ≠ i := fun heq => hpart (congrArg DevicePart.ring heq)
      have hsame : (dev.setRing i tr).transferRings j = dev.transferRings j := by
        unfold setRing
        exact Function.update_of_ne hj _ _
      rw [own, hsame, own]

/-- The other parts of the device hold the same bytes as before a change of one driver. -/
theorem own_setDriver_of_ne (dev : Device) {p : Addr} (d : HidDriver) {part : DevicePart}
    (hpart : part ≠ .driver p) : (dev.setDriver p d).own part = dev.own part := by
  cases part with
  | object => rfl
  | ring i => rfl
  | driver q =>
      have hq : q ≠ p := fun heq => hpart (congrArg DevicePart.driver heq)
      have hsame : (dev.setDriver p d).drivers q = dev.drivers q := by
        unfold setDriver
        exact Function.update_of_ne hq _ _
      rw [own, hsame, own]

/-- A ring is replaced by one with the same TRBs. -/
theorem setRing_keepsMemory {dev : Device} {i : Fin 31} {tr tr' : Ring}
    (hring : dev.transferRings i = some tr) (hbytes : tr'.bytes = tr.bytes) :
    KeepsMemory dev (dev.setRing i (some tr')) := by
  intro part
  by_cases hpart : part = .ring i
  · subst hpart
    rw [own_setRing_self, hbytes]
    exact fun x hx => ⟨tr, hring, hx⟩
  · rw [own_setRing_of_ne dev _ hpart]

/-- A subscript that gets no ring holds nothing. -/
theorem setRing_none_keepsMemory (dev : Device) (i : Fin 31) :
    KeepsMemory dev (dev.setRing i none) := by
  intro part
  by_cases hpart : part = .ring i
  · subst hpart
    rw [own_setRing_none]
    exact Set.empty_subset _
  · rw [own_setRing_of_ne dev _ hpart]

/-- A driver changes that exists. -/
theorem setDriver_keepsMemory {dev : Device} {p : Addr} {d : HidDriver}
    (hdriver : dev.drivers p = some d) (d' : HidDriver) :
    KeepsMemory dev (dev.setDriver p d') := by
  intro part
  by_cases hpart : part = .driver p
  · subst hpart
    rintro x ⟨-, hx⟩
    exact ⟨by rw [hdriver]; exact Option.some_ne_none d, hx⟩
  · rw [own_setDriver_of_ne dev _ hpart]

/-! ## Requests -/

/-- A control transfer is written to TRBs that the ring has. -/
theorem pushTransfer_bytes {tr : Ring} {dataType : BitVec 2} {dirIn : Bool} {dataStatus : Trb}
    {setupData : SetupData} {buf : Addr} {len : Int} {pushed : Addr × Addr × Ring}
    (h : pushTransfer tr dataType dirIn dataStatus setupData buf len = .ok pushed) :
    pushed.2.2.bytes = tr.bytes := by
  obtain ⟨hbuf, hsize⟩ := pushTransfer_place h
  rw [Ring.bytes, hbuf, hsize, Ring.bytes]

/-- A control transfer uses the TRBs of its ring, which was given its memory before, and takes
none. -/
theorem controlTransfer_keepsMemory {dev dev' : Device} {type : BitVec 2} {dirIn : Bool}
    {status : Trb} {epId : EndpointID} {setupData : SetupData} {buf : Addr} {len : Int}
    {issuer : Addr} {err : Error}
    (h : dev.controlTransfer type dirIn status epId setupData buf len issuer = .ok (err, dev')) :
    KeepsMemory dev dev' := by
  have hwaiter : KeepsMemory dev (dev.addWaiter setupData issuer) := by
    obtain ⟨eventWaiters, hadd⟩ := addWaiter_fields dev setupData issuer
    rw [hadd]
    exact .of_fields rfl rfl rfl
  rcases controlTransfer_pushed h with rfl | ⟨i, dci, tr, pushed, hring, hpush, rfl⟩
  · exact hwaiter
  · have hset := setRing_keepsMemory hring (pushTransfer_bytes hpush)
    exact hwaiter.trans (hset.trans (.of_fields rfl rfl rfl))

/-- So is a request for a report. -/
theorem interruptIn_keepsMemory {dev dev' : Device} {epId : EndpointID} {buf : Addr} {len : Int}
    {err : Error} (h : dev.interruptIn epId buf len = .ok (err, dev')) : KeepsMemory dev dev' := by
  rcases interruptIn_pushed h with rfl | ⟨i, tr, position, tr', hring, hpush, rfl⟩
  · exact .refl dev'
  · have hset := setRing_keepsMemory hring (Ring.push_bytes hpush)
    exact hset.trans (.of_fields rfl rfl rfl)

/-! ## Memory for a class driver -/

section DrawsMemory

variable {m : MemoryPool} {dma : Dma} {obs : DefaultObservers} {dev dev' : Device}
  {pool pool' : Pool}

/-- A call that keeps the memory draws none. -/
theorem KeepsMemory.draws (h : KeepsMemory dev dev') (pool : Pool) :
    DrawsMemory m dev.own pool dev'.own pool := .of_subset h

/-- A class driver takes the block of its object, which is kept under the address of the driver;
no other part gains anything. -/
theorem newClassDriver_draws (hroomy : m.Roomy) {ifDesc : InterfaceDescriptor} {p : Addr}
    (h : newClassDriver obs dev ifDesc pool = .ok (p, dev', pool')) :
    DrawsMemory m dev.own pool dev'.own pool' := by
  unfold newClassDriver at h
  split at h
  · cases h
    exact .refl m dev.own pool
  · generalize hblock : pool.allocMem hidSizeOf 0 0 = block at h
    unfold placeClassDriver at h
    split at h
    · cases h
    · cases h
      refine .block hroomy modest_zero modest_zero (by decide) hblock (.driver block.1) ?_ ?_
      · exact fun x hx => Or.inr hx.2
      · intro part hpart
        rw [own_setDriver_of_ne dev _ hpart]

/-! ## Memory for a transfer ring -/

/-- `sizeof(TRB) * buf_size` does not wrap. -/
theorem toNat_ringSize {n : Nat} (hn : n ≤ 2 ^ 15) :
    (16 * BitVec.ofNat 64 n : BitVec 64).toNat = 16 * n := by
  have h16 : (16 : BitVec 64).toNat = 16 := rfl
  rw [BitVec.toNat_mul, BitVec.toNat_ofNat, h16]
  omega

/-- Whether it is null or not, the block is what the ring points to. -/
theorem useBlock_bytes (r : Ring) (n : Nat) (block : Addr × Pool) :
    (r.useBlock n block).2.1.bytes = bytesAt block.1 (16 * n) := by
  unfold Ring.useBlock
  split
  · rfl
  · rfl

/-- `Initialize` of a ring draws the memory of its TRBs for the owner `o` that gets the ring,
and for nobody else. -/
theorem initializeRing_draws {O : Type} {own own' : O → Set Nat} (hroomy : m.Roomy) {r r' : Ring}
    {n : Nat} (hn : n ≤ 2 ^ 15) {err : Error} (h : r.initializeRing n pool = (err, r', pool'))
    (o : O) (hone : own' o ⊆ own o ∪ r'.bytes) (hrest : ∀ o', o' ≠ o → own' o' ⊆ own o') :
    DrawsMemory m own pool own' pool' := by
  obtain ⟨block, hblock⟩ : ∃ block,
    pool.allocArray 16 (BitVec.ofNat 64 n) 64 (64 * 1024) = block := ⟨_, rfl⟩
  have hpool := useBlock_pool r n block
  have hbytes := useBlock_bytes r n block
  rw [Ring.initializeRing, hblock] at h
  rw [h] at hpool hbytes
  dsimp only at hpool hbytes
  subst hpool
  have hsize := toNat_ringSize hn
  refine .block hroomy modest_line modest_segment (by omega) hblock o ?_ hrest
  rw [hsize, ← hbytes]
  exact hone

/-- The TRBs of a ring go to the subscript it is made for.  If there is no memory for the object
of the ring, the subscript holds nothing afterwards. -/
theorem placeRing_draws (hroomy : m.Roomy) (dev : Device) (i : Fin 31) {object : Addr × Pool}
    {placed : Option Ring × Pool} (h : placeRing 32 object = placed) :
    DrawsMemory m dev.own object.2 (dev.setRing i placed.1).own placed.2 := by
  rcases eq_or_ne object.1 nullptr with hnull | hne
  · rw [placeRing_of_eq hnull] at h
    subst h
    exact (setRing_none_keepsMemory dev i).draws _
  · rw [placeRing_of_ne hne] at h
    generalize hinit : rawRing.initializeRing 32 object.2 = result at h
    obtain ⟨err, tr, pool'⟩ := result
    subst h
    refine initializeRing_draws hroomy (by decide) hinit (.ring i) ?_ ?_
    · rw [own_setRing_self]
      exact Set.subset_union_right
    · intro part hpart
      rw [own_setRing_of_ne dev _ hpart]

/-- **`AllocTransferRing`** draws memory for the TRBs of the ring, and for the ring object,
which only the driver uses. -/
theorem allocTransferRing_draws (hroomy : m.Roomy) {i : Fin 31}
    {result : Option Ring × Device × Pool} (h : dev.allocTransferRing i 32 pool = result) :
    DrawsMemory m dev.own pool result.2.1.own result.2.2 := by
  obtain ⟨object, hobject⟩ : ∃ object, pool.allocArray 32 1 64 4096 = object := ⟨_, rfl⟩
  obtain ⟨placed, hplaced⟩ : ∃ placed, placeRing 32 object = placed := ⟨_, rfl⟩
  have hring : dev.allocTransferRing i 32 pool = (placed.1, dev.setRing i placed.1, placed.2) :=
    allocTransferRing_placed (by rw [hobject, hplaced])
  rw [h] at hring
  subst hring
  have hunused : DrawsMemory m dev.own pool dev.own object.2 :=
    .unused hroomy modest_line modest_page (by decide) hobject
  exact hunused.trans (placeRing_draws hroomy dev i hplaced)

/-! ## Effects -/

/-- **One effect** draws memory for a class driver or a ring, or none, and the parts of the
device stay apart. -/
theorem Effect.draws (hroomy : m.Roomy) (h : Effect (dev, pool) (dev', pool')) :
    DrawsMemory m dev.own pool dev'.own pool' := by
  cases h with
  | fields hself hrings hdrivers =>
      exact (KeepsMemory.of_fields hself hrings hdrivers).draws _
  | driver hdriver => exact (setDriver_keepsMemory hdriver _).draws _
  | controlIn _ hcall => exact (controlTransfer_keepsMemory hcall).draws _
  | controlOut _ hcall => exact (controlTransfer_keepsMemory hcall).draws _
  | interrupt _ hcall => exact (interruptIn_keepsMemory hcall).draws _
  | newDriver hcall => exact newClassDriver_draws hroomy hcall
  | newRing hcall => exact allocTransferRing_draws hroomy hcall

/-- **Every call** draws the memory of its effects. -/
theorem Effects.draws (hroomy : m.Roomy) (h : Effects dev pool dev' pool') :
    DrawsMemory m dev.own pool dev'.own pool' :=
  h.induction (fun dev pool dev' pool' => DrawsMemory m dev.own pool dev'.own pool')
    (fun dev pool => .refl m dev.own pool) .trans (Effect.draws hroomy)

end DrawsMemory

end Device

end Mikanos.Xhci
