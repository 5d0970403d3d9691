import Mikanos.Usb.InterruptInput
import Mikanos.Xhci.ControlTransfers
import Mikanos.Xhci.MemoryOwnership

/-!
# Where the data of a transfer goes

A Normal or Data Stage TRB names a buffer, and the controller reads and writes there on its
own.  `Confined` is what the driver does about it: every such TRB on a ring of a device names
the buffer for descriptors in the device, or the buffer for reports in a class driver of the
device.  The effects keep it, so it holds in every run.

With the holdings of the pool this says that the data of a device goes to memory of this
device, which nothing else uses (`run_ownBuffers`).
-/

namespace Mikanos.Xhci

open Relation Mikanos.Usb

/-- The bytes that the controller transfers for a TRB. -/
def Trb.dataBytes (t : Trb) : Set Nat :=
  {x | (t.trbType = normalType ∨ t.trbType = dataStageType) ∧
    x ∈ Set.Ico t.parameter.toNat (t.parameter.toNat + (Device.transferLength t).toNat)}

/-- What every TRB of a ring has after `Push` that it had before: the new TRB has it with
either cycle bit, and so has the link back to the start. -/
theorem Ring.push_forall {P : Trb → Prop} {r r' : Ring} {trb : Trb} {p : Addr}
    (h : r.push trb = .ok (p, r')) (hring : ∀ k, P (r.mem k)) (htrb : ∀ cycle, P (trb.stamp cycle))
    (hlink : ∀ r₀ : Ring, ∀ cycle, P (r₀.link.stamp cycle)) : ∀ k, P (r'.mem k) := by
  have hcopy : ∀ (r₁ r₀ : Ring) (t : Trb), (∀ k, P (r₁.mem k)) → P (t.stamp r₀.cycleBit) →
      ∀ k, P ((r₁.applyStores (r₀.copyToLast t)).mem k) := by
    intro r₁ r₀ t hmem ht k
    rw [Ring.mem_applyStores_copyToLast]
    by_cases hk : k = r₀.writeIndex
    · rw [hk, Function.update_self]
      exact ht
    · rw [Function.update_of_ne hk]
      exact hmem k
  have hadvance : ∀ k, P (r.advance.mem k) := by
    rw [Ring.advance_mem]
    exact hring
  unfold Ring.push at h
  split at h
  · cases h
  · cases h
    let r₁ : Ring := { r with writeIndex := r.writeIndex + 1 }
    have hsplit : r.advance.applyStores (r.pushStores trb) =
        (r.advance.applyStores (r.copyToLast trb)).applyStores
          (if r₁.writeIndex = r₁.bufSize - 1 then r₁.copyToLast r₁.link else []) :=
      List.foldl_append
    have hfirst : ∀ k, P ((r.advance.applyStores (r.copyToLast trb)).mem k) :=
      hcopy r.advance r trb hadvance (htrb r.cycleBit)
    rw [hsplit]
    split
    · exact hcopy _ r₁ r₁.link hfirst (hlink r₁ r₁.cycleBit)
    · exact hfirst

namespace Device

/-- If the TRB names a buffer, it is one that the device has. -/
def NamesOwn (dev : Device) (t : Trb) : Prop :=
  t.trbType = normalType ∨ t.trbType = dataStageType →
    transferLength t = 0 ∨
    t.parameter = dev.buffer ∧ (transferLength t).toNat ≤ 256 ∨
    ∃ p, dev.drivers p ≠ none ∧ t.parameter = hidBuffer p ∧ (transferLength t).toNat ≤ kBufferSize

/-- The device and its class drivers exist, reports fit the buffers for them, and the TRBs name
buffers of the device. -/
structure Confined (dev : Device) : Prop where
  placed : dev.self ≠ nullptr
  drivers : ∀ p d, dev.drivers p = some d →
    p ≠ nullptr ∧ 0 ≤ d.inPacketSize ∧ d.inPacketSize ≤ kBufferSize
  rings : ∀ i tr, dev.transferRings i = some tr → ∀ k, dev.NamesOwn (tr.mem k)

section Trbs

variable {dev dev' : Device} {t : Trb} {buf : Addr} {len : Int}

/-- A TRB of another type names no buffer. -/
theorem NamesOwn.of_trbType (hnormal : t.trbType ≠ normalType) (hdata : t.trbType ≠ dataStageType) :
    dev.NamesOwn t := by
  rintro (h | h)
  · exact absurd h hnormal
  · exact absurd h hdata

/-- The cycle bit does not matter. -/
theorem NamesOwn.stamp (h : dev.NamesOwn t) (cycle : Bool) : dev.NamesOwn (t.stamp cycle) := by
  have hlength : transferLength (t.stamp cycle) = transferLength t :=
    Trb.bits_stamp t cycle 2 _ (Or.inl (by decide))
  unfold NamesOwn
  rw [Trb.trbType_stamp, Trb.parameter_stamp, hlength]
  exact h

/-- A device that has not moved and has at least the same class drivers. -/
theorem NamesOwn.mono (h : dev.NamesOwn t) (hself : dev'.self = dev.self)
    (hdrivers : ∀ p, dev.drivers p ≠ none → dev'.drivers p ≠ none) : dev'.NamesOwn t := by
  intro htype
  rcases h htype with hempty | ⟨hbuffer, hlength⟩ | ⟨p, hdriver, hbuffer, hlength⟩
  · exact Or.inl hempty
  · refine Or.inr (Or.inl ⟨?_, hlength⟩)
    rw [hbuffer, buffer, buffer, hself]
  · exact Or.inr (Or.inr ⟨p, hdrivers p hdriver, hbuffer, hlength⟩)

/-- A TRB with the buffer and the length of a request names bytes of the device, if the request
has a buffer of the device. -/
theorem OwnBuffer.namesOwn (h : OwnBuffer dev buf len) (hdev : dev.Confined)
    (hbuf : t.parameter = buf) (hlen : transferLength t = BitVec.ofInt 17 len) :
    dev.NamesOwn t := by
  intro _
  rw [hbuf, hlen]
  cases h with
  | none => exact Or.inl rfl
  | descriptor => exact Or.inr (Or.inl ⟨rfl, by decide⟩)
  | report hdriver =>
      rename_i p d
      obtain ⟨-, hpos, hle⟩ := hdev.drivers p d hdriver
      refine Or.inr (Or.inr ⟨p, by rw [hdriver]; exact Option.some_ne_none d, rfl, ?_⟩)
      rw [BitVec.toNat_ofInt]
      unfold kBufferSize at *
      omega

/-- What `ControlIn` and `ControlOut` push around the data, a Setup Stage in front and a Status
Stage behind, is not data. -/
theorem trbType_makeSetupStageTRB (setupData : SetupData) (type : BitVec 2) :
    (makeSetupStageTRB setupData type).trbType = setupStageType := by
  unfold makeSetupStageTRB setupStageTRB Trb.trbType
  rw [Trb.bits_setBits_of_disjoint _ _ _ _ _ _ (by decide),
    Trb.bits_setBits_of_disjoint _ _ _ _ _ _ (by decide),
    Trb.bits_setBits_of_disjoint _ _ _ _ _ _ (by decide),
    Trb.bits_setBits_of_disjoint _ _ _ _ _ _ (by decide),
    Trb.bits_setBits_of_disjoint _ _ _ _ _ _ (by decide),
    Trb.bits_setBits_of_disjoint _ _ _ _ _ _ (by decide),
    Trb.bits_setBits_of_disjoint _ _ _ _ _ _ (by decide),
    Trb.bits_setBits_of_disjoint _ _ _ _ _ _ (by decide),
    Trb.bits_setBits_same _ _ _ _ (by decide)]
  rfl

/-- The Setup Stage TRB carries its eight bytes in itself. -/
theorem namesOwn_setup (setupData : SetupData) (type : BitVec 2) :
    dev.NamesOwn (makeSetupStageTRB setupData type) := by
  apply NamesOwn.of_trbType
  · rw [trbType_makeSetupStageTRB]
    decide
  · rw [trbType_makeSetupStageTRB]
    decide

/-- The link TRB points back to the ring, and the controller does not write there. -/
theorem namesOwn_link (r : Ring) : dev.NamesOwn r.link := by
  apply NamesOwn.of_trbType
  · rw [Ring.trbType_link]
    decide
  · rw [Ring.trbType_link]
    decide

/-- The status stage after data to the device names no buffer. -/
theorem namesOwn_status : dev.NamesOwn statusStageTRB := .of_trbType (by decide) (by decide)

/-- A Status Stage TRB names no memory, with the direction bit set as well. -/
theorem namesOwn_statusIn : dev.NamesOwn (statusDirection statusStageTRB) :=
  .of_trbType (by decide) (by decide)

/-- After a `Push` every TRB of the ring names a buffer of the device, if it was so before and
the new one does. -/
theorem push_namesOwn {r r' : Ring} {p : Addr} (h : r.push t = .ok (p, r'))
    (hring : ∀ k, dev.NamesOwn (r.mem k)) (ht : dev.NamesOwn t) : ∀ k, dev.NamesOwn (r'.mem k) :=
  Ring.push_forall h hring (fun cycle => ht.stamp cycle)
    fun r₀ cycle => (namesOwn_link r₀).stamp cycle

end Trbs

section Effects

variable {dev dev' : Device} {pool pool' : Pool} {buf : Addr} {len : Int} {err : Error}

/-- That a device is confined depends on the object, the rings and the class drivers only, so
changes of other fields keep it. -/
theorem Confined.of_fields (h : dev.Confined) (hself : dev'.self = dev.self)
    (hrings : dev'.transferRings = dev.transferRings) (hdrivers : dev'.drivers = dev.drivers) :
    dev'.Confined where
  placed := by
    rw [hself]
    exact h.placed
  drivers := by
    rw [hdrivers]
    exact h.drivers
  rings := by
    intro i tr htr k
    rw [hrings] at htr
    refine (h.rings i tr htr k).mono hself fun p hp => ?_
    rw [hdrivers]
    exact hp

/-- A ring is replaced by one whose TRBs name buffers of the device, and the device stays
confined. -/
theorem Confined.setRing (h : dev.Confined) (i : Fin 31) {ring : Option Ring}
    (hring : ∀ tr, ring = some tr → ∀ k, dev.NamesOwn (tr.mem k)) :
    (dev.setRing i ring).Confined where
  placed := h.placed
  drivers := h.drivers
  rings := by
    intro j tr htr k
    have hnames : dev.NamesOwn (tr.mem k) := by
      by_cases hj : j = i
      · subst hj
        have hset : (dev.setRing j ring).transferRings j = ring := Function.update_self _ _ _
        exact hring tr (hset.symm.trans htr) k
      · have hsame : (dev.setRing i ring).transferRings j = dev.transferRings j :=
          Function.update_of_ne hj _ _
        exact h.rings j tr (hsame.symm.trans htr) k
    exact hnames.mono rfl fun p hp => hp

/-- A class driver is made or changes, with reports that fit its buffer. The TRBs that name its
buffer go on naming it. -/
theorem Confined.setDriver (h : dev.Confined) {p : Addr} {d : HidDriver} (hp : p ≠ nullptr)
    (hpos : 0 ≤ d.inPacketSize) (hle : d.inPacketSize ≤ kBufferSize) :
    (dev.setDriver p d).Confined where
  placed := h.placed
  drivers := by
    intro q d' hq
    by_cases hqp : q = p
    · subst hqp
      have hset : (dev.setDriver q d).drivers q = some d := Function.update_self _ _ _
      obtain rfl := Option.some.inj (hset.symm.trans hq)
      exact ⟨hp, hpos, hle⟩
    · have hsame : (dev.setDriver p d).drivers q = dev.drivers q := Function.update_of_ne hqp _ _
      exact h.drivers q d' (hsame.symm.trans hq)
  rings := by
    intro i tr htr k
    refine (h.rings i tr htr k).mono rfl fun q hq => ?_
    by_cases hqp : q = p
    · subst hqp
      have hset : (dev.setDriver q d).drivers q = some d := Function.update_self _ _ _
      rw [hset]
      exact Option.some_ne_none d
    · have hsame : (dev.setDriver p d).drivers q = dev.drivers q := Function.update_of_ne hqp _ _
      rw [hsame]
      exact hq

/-- **The TRBs of a control transfer**: setup and status stage have no buffer, and the data
stage has the one of the request. -/
theorem pushTransfer_namesOwn {tr : Ring} {dataType : BitVec 2} {dirIn : Bool} {dataStatus : Trb}
    {setupData : SetupData} {pushed : Addr × Addr × Ring}
    (h : pushTransfer tr dataType dirIn dataStatus setupData buf len = .ok pushed)
    (hring : ∀ k, dev.NamesOwn (tr.mem k)) (hstatus : dev.NamesOwn dataStatus)
    (hdata : dev.NamesOwn (issuerTRB dirIn buf len)) : ∀ k, dev.NamesOwn (pushed.2.2.mem k) := by
  unfold issuerTRB at hdata
  unfold pushTransfer at h
  split at h
  · rename_i hbuf
    rw [if_pos hbuf] at hdata
    unfold pushWithData at h
    obtain ⟨⟨setupPosition, tr₁⟩, hsetup, h⟩ := bind_eq_ok.mp h
    obtain ⟨⟨dataPosition, tr₂⟩, hpush, h⟩ := bind_eq_ok.mp h
    obtain ⟨⟨statusPosition, tr₃⟩, hlast, h⟩ := bind_eq_ok.mp h
    cases h
    have hfirst := push_namesOwn hsetup hring (namesOwn_setup _ _)
    exact push_namesOwn hlast (push_namesOwn hpush hfirst hdata) hstatus
  · rename_i hbuf
    rw [if_neg hbuf] at hdata
    unfold pushNoData at h
    obtain ⟨⟨setupPosition, tr₁⟩, hsetup, h⟩ := bind_eq_ok.mp h
    obtain ⟨⟨statusPosition, tr₂⟩, hlast, h⟩ := bind_eq_ok.mp h
    cases h
    exact push_namesOwn hlast (push_namesOwn hsetup hring (namesOwn_setup _ _)) hdata

/-- The TRB that carries the buffer of a request on a control pipe names bytes of the device. -/
theorem OwnBuffer.issuer (h : OwnBuffer dev buf len) (hdev : dev.Confined) (dirIn : Bool) :
    dev.NamesOwn (issuerTRB dirIn buf len) := by
  by_cases hbuf : buf = nullptr
  · subst hbuf
    apply NamesOwn.of_trbType
    · exact issuerTRB_trbType_ne dirIn nullptr len
    · rw [issuerTRB_status]
      decide
  · obtain ⟨-, hparameter, hlength⟩ := issuerTRB_data dirIn len hbuf
    exact h.namesOwn hdev hparameter hlength

/-- A control transfer with a buffer of the device keeps the device confined: the TRBs around
the data name no memory. -/
theorem controlTransfer_confined {type : BitVec 2} {dirIn : Bool} {status : Trb}
    {epId : EndpointID} {setupData : SetupData} {issuer : Addr}
    (h : dev.controlTransfer type dirIn status epId setupData buf len issuer = .ok (err, dev'))
    (hdev : dev.Confined) (hbuffer : OwnBuffer dev buf len)
    (hstatus : ∀ dev : Device, dev.NamesOwn status) : dev'.Confined := by
  have hwaiter : (dev.addWaiter setupData issuer).Confined := by
    obtain ⟨eventWaiters, hadd⟩ := addWaiter_fields dev setupData issuer
    rw [hadd]
    exact hdev.of_fields rfl rfl rfl
  have hissuer : (dev.addWaiter setupData issuer).NamesOwn (issuerTRB dirIn buf len) := by
    obtain ⟨eventWaiters, hadd⟩ := addWaiter_fields dev setupData issuer
    rw [hadd]
    exact (hbuffer.issuer hdev dirIn).mono rfl fun p hp => hp
  rcases controlTransfer_pushed h with rfl | ⟨i, dci, tr, pushed, hring, hpush, rfl⟩
  · exact hwaiter
  · have hset : ((dev.addWaiter setupData issuer).setRing i (some pushed.2.2)).Confined := by
      refine hwaiter.setRing i fun tr' htr' => ?_
      obtain rfl := Option.some.inj htr'
      exact pushTransfer_namesOwn hpush (hwaiter.rings i tr hring) (hstatus _) hissuer
    exact hset.of_fields rfl rfl rfl

/-- A request for a report into a buffer of the device keeps the device confined. -/
theorem interruptIn_confined {epId : EndpointID}
    (h : dev.interruptIn epId buf len = .ok (err, dev')) (hdev : dev.Confined)
    (hbuffer : OwnBuffer dev buf len) : dev'.Confined := by
  rcases interruptIn_pushed h with rfl | ⟨i, tr, position, tr', hring, hpush, rfl⟩
  · exact hdev
  · obtain ⟨-, hparameter, hlength⟩ := normalTRB_data buf (BitVec.ofInt 17 len)
    have hset : (dev.setRing i (some tr')).Confined := by
      refine hdev.setRing i fun tr₁ htr₁ => ?_
      obtain rfl := Option.some.inj htr₁
      exact push_namesOwn hpush (hdev.rings i tr hring)
        (hbuffer.namesOwn hdev hparameter hlength)
    exact hset.of_fields rfl rfl rfl

/-- A new class driver has a packet size of 8 or 3, and both fit into its buffer, so the device
stays confined. -/
theorem newClassDriver_confined {obs : DefaultObservers} {ifDesc : InterfaceDescriptor} {p : Addr}
    (h : newClassDriver obs dev ifDesc pool = .ok (p, dev', pool')) (hdev : dev.Confined) :
    dev'.Confined := by
  unfold newClassDriver at h
  split at h
  · cases h
    exact hdev
  · rename_i kind hkind
    generalize pool.allocMem hidSizeOf 0 0 = block at h
    unfold placeClassDriver at h
    split at h
    · cases h
    · rename_i hplaced
      cases h
      have hsize : (newHidDriver kind ifDesc.interfaceNumber (obs.count kind)).inPacketSize = 8 ∨
          (newHidDriver kind ifDesc.interfaceNumber (obs.count kind)).inPacketSize = 3 := by
        cases kind with
        | keyboard => exact Or.inl rfl
        | mouse => exact Or.inr rfl
      refine hdev.setDriver hplaced (by omega) ?_
      unfold kBufferSize
      omega

/-- `Initialize` clears TRBs and changes no others, so a ring of cleared TRBs stays one. -/
theorem useBlock_zero {r : Ring} (hzero : ∀ k, r.mem k = Trb.zero) (n : Nat) (block : Addr × Pool)
    (k : Nat) : (r.useBlock n block).2.1.mem k = Trb.zero := by
  unfold Ring.useBlock
  split
  · exact hzero k
  · dsimp only
    split
    · rfl
    · exact hzero k

/-- A new ring has no TRBs: every slot of it is zero, and so names no memory. -/
theorem placeRing_zero {n : Nat} {object : Addr × Pool} {tr : Ring}
    (h : (placeRing n object).1 = some tr) (k : Nat) : tr.mem k = Trb.zero := by
  rcases eq_or_ne object.1 nullptr with hnull | hne
  · rw [placeRing_of_eq hnull] at h
    cases h
  · rw [placeRing_of_ne hne] at h
    obtain rfl := Option.some.inj h
    rw [Ring.initializeRing]
    exact useBlock_zero (fun _ => rfl) n _ k

/-- A new ring is empty. -/
theorem allocTransferRing_confined {i : Fin 31} (hdev : dev.Confined) :
    (dev.allocTransferRing i 32 pool).2.1.Confined := by
  refine hdev.setRing i fun tr htr k => ?_
  rw [placeRing_zero htr k]
  exact .of_trbType (by decide) (by decide)

/-- **One effect** keeps the data of the device in its buffers: the only TRBs that it adds are
those of requests, and every request of a device names a buffer of its own. -/
theorem Effect.confined (h : Effect (dev, pool) (dev', pool')) (hdev : dev.Confined) :
    dev'.Confined := by
  cases h with
  | fields hself hrings hdrivers => exact hdev.of_fields hself hrings hdrivers
  | driver hdriver hsize =>
      obtain ⟨hp, hpos, hle⟩ := hdev.drivers _ _ hdriver
      exact hdev.setDriver hp (by rw [hsize]; exact hpos) (by rw [hsize]; exact hle)
  | controlIn hbuffer hcall =>
      exact controlTransfer_confined hcall hdev hbuffer fun _ => namesOwn_status
  | controlOut hbuffer hcall =>
      exact controlTransfer_confined hcall hdev hbuffer fun _ => namesOwn_statusIn
  | interrupt hbuffer hcall => exact interruptIn_confined hcall hdev hbuffer
  | newDriver hcall => exact newClassDriver_confined hcall hdev
  | newRing hcall =>
      subst hcall
      exact allocTransferRing_confined hdev

/-- **Every call** of the device layer keeps the device confined. -/
theorem Effects.confined (h : Effects dev pool dev' pool') : dev.Confined → dev'.Confined :=
  h.induction (fun dev _ dev' _ => dev.Confined → dev'.Confined) (fun _ _ hdev => hdev)
    (fun hfirst hsecond hdev => hsecond (hfirst hdev)) Effect.confined

end Effects

/-- A new device has no class drivers and no rings. -/
theorem confined_new {self : Addr} (hself : self ≠ nullptr) (slotId : BitVec 8) :
    (Device.new self slotId).Confined where
  placed := hself
  drivers := by
    intro p d h
    cases h
  rings := by
    intro i tr h
    cases h

end Device

namespace Controller

/-- Every device is confined to its buffers. -/
def Confined (c : Controller) : Prop :=
  ∀ slot dev, c.devmgr.devices slot = some dev → dev.Confined

section Steps

variable {c c' : Controller} {slotId : BitVec 8} {dev dev' : Device} {pool' : Pool} {err : Error}

/-- One device changes and the others stay confined. -/
theorem Confined.setDevice (h : c.Confined) (hdev : dev.Confined) :
    ({ c with pool := pool' }.setDevice slotId dev).Confined := by
  intro slot dev₁ hdev₁
  rcases DeviceManager.devices_setDevice_cases hdev₁ with ⟨-, rfl⟩ | ⟨-, hold⟩
  · exact hdev
  · exact h slot dev₁ hold

/-- A new device has neither rings nor drivers. -/
theorem allocDevice_confined {devmgr : DeviceManager}
    (hcall : c.devmgr.allocDevice slotId c.pool = .ok (err, devmgr, pool')) (h : c.Confined) :
    Confined { c with devmgr := devmgr, pool := pool' } := by
  rcases DeviceManager.allocDevice_cases hcall with ⟨-, rfl⟩ | ⟨-, rfl, -⟩ |
    ⟨-, -, self, hself, rfl⟩
  · exact h
  · exact h
  · exact h.setDevice (Device.confined_new hself slotId)

/-- **One effect** on the driver keeps every device confined: it concerns one device, or makes a
new one without TRBs. -/
theorem Effect.confined (heffect : Effect c c') (h : c.Confined) : c'.Confined := by
  cases heffect with
  | places hplaces =>
      intro slot dev hdev
      rw [hplaces.devices] at hdev
      exact h slot dev hdev
  | hardware mem interrupter contexts =>
      intro slot dev hdev
      obtain ⟨dev₀, hdev₀, rfl⟩ := Option.map_eq_some_iff.mp hdev
      exact (h slot dev₀ hdev₀).of_fields rfl rfl rfl
  | device hdev hcall => exact h.setDevice (hcall.confined (h _ _ hdev))
  | newDevice hcall => exact allocDevice_confined hcall h

/-! ## Starting -/

/-- Setting up the rings of the controller does not concern the device manager, which stays as
it is. -/
theorem useCommandRing_devmgr {hw : PowerOn} {writes writes' : List RegisterWrite}
    {result : Error × Ring × Pool} (h : useCommandRing hw c writes result = (err, c', writes')) :
    c'.devmgr = c.devmgr := by
  unfold useCommandRing at h
  dsimp only at h
  split at h
  · cases h
    rfl
  · generalize c.er.initializeEventRing 32 result.2.2 = events at h
    unfold useEventRing at h
    dsimp only at h
    split at h
    · cases h
      rfl
    · cases h
      rfl

/-- After `Initialize` there is no device, whatever its result, so nothing is to be shown of
one. -/
theorem initializeController_devices {hw : PowerOn} {writes : List RegisterWrite}
    (h : initializeController hw c = .ok (err, c', writes)) (slot : Nat) :
    c'.devmgr.devices slot = none := by
  obtain ⟨⟨err₁, devmgr, pool⟩, hmanager⟩ : ∃ result,
    DeviceManager.initializeManager kDeviceSize c.pool = result := ⟨_, rfl⟩
  have hempty : devmgr.devices slot = none := (initializeManager_cases hmanager).2.1 slot
  unfold initializeController at h
  rw [hmanager] at h
  unfold useDeviceManager at h
  dsimp only at h
  split at h
  · cases h
    exact hempty
  · split at h
    · obtain ⟨c₁, hscratchpad, h⟩ := bind_eq_ok.mp h
      have hrings := useCommandRing_devmgr (Except.ok.inj h)
      rw [hrings]
      rcases initializeScratchpad_cases hscratchpad with rfl | ⟨pool₁, array, pages, rfl⟩
      · exact hempty
      · exact hempty
    · cases h

end Steps

/-! ## Runs -/

/-- A part of an object that lies below the border lies in the object. -/
theorem mem_bytesAt_of_part {p : Addr} {size border offset len x : Nat} (hp : p ≠ nullptr)
    (hinside : bytesAt p size ⊆ Set.Iio border) (hborder : border ≤ 2 ^ 64)
    (hpart : offset + len ≤ size)
    (hx : x ∈ Set.Ico (p + BitVec.ofNat 64 offset).toNat
      ((p + BitVec.ofNat 64 offset).toNat + len)) :
    x ∈ bytesAt p size := by
  obtain ⟨hge, hlt⟩ := hx
  have hlast : p.toNat + (size - 1) ∈ bytesAt p size := ⟨hp, by omega, by omega⟩
  have hend : p.toNat + (size - 1) < border := hinside hlast
  rw [BitVec.toNat_add, BitVec.toNat_ofNat] at hge hlt
  exact ⟨hp, by omega, by omega⟩

section Run

variable {Allowed : Surroundings → Controller → Trb → Prop} {m : MemoryPool} {hw : PowerOn}
  {maxPorts : BitVec 8} {c₀ c c' : Controller} {err : Error} {writes : List RegisterWrite}

/-- Every device of a run is confined to its buffers. -/
theorem run_confined
    (hinit : initializeController hw (Controller.new maxPorts (Pool.init m)) =
      .ok (err, c₀, writes))
    (hrun : ReflTransGen (Step Allowed) c₀ c) : c.Confined := by
  have hstart : c₀.Confined := by
    intro slot dev hdev
    rw [initializeController_devices hinit slot] at hdev
    cases hdev
  exact run_induction (fun c c' => c.Confined → c'.Confined) (fun _ h => h)
    (fun hfirst hsecond h => hsecond (hfirst h)) Effect.confined hrun hstart

/-- **The data of a device stays with the device.**  Whatever TRB is on a transfer ring of a
device at some time of a run, the bytes that the controller reads or writes for it belong to
the object of this device or to one of its class drivers, and to nothing else. -/
theorem run_ownBuffers (hroomy : m.Roomy)
    (hinit : initializeController hw (Controller.new maxPorts (Pool.init m)) =
      .ok (err, c₀, writes))
    (hrun : ReflTransGen (Step Allowed) c₀ c) {slot : Nat} {dev : Device} {i : Fin 31} {tr : Ring}
    {k x : Nat} (hdev : c.devmgr.devices slot = some dev)
    (hring : dev.transferRings i = some tr) (hx : x ∈ (tr.mem k).dataBytes) :
    ∃ part, (part = .object ∨ ∃ p, part = .driver p) ∧ x ∈ c.own (.device slot part) ∧
      ∀ o, x ∈ c.own o → o = .device slot part := by
  have hconfined : dev.Confined := run_confined hinit hrun slot dev hdev
  have howned := run_owned hroomy hinit hrun
  have hborder : c.pool.border ≤ 2 ^ 64 := by
    have hlimit : m.limit < 2 ^ 64 := by
      unfold MemoryPool.Roomy at hroomy
      omega
    have hle : c.pool.border ≤ c.pool.memoryPool.limit := Nat.min_le_right _ _
    rw [howned.sound.memoryPool] at hle
    omega
  have hbelow : ∀ part, dev.own part ⊆ Set.Iio c.pool.border := by
    intro part y hy
    exact (howned.apart.inside (.device slot part) ⟨dev, hdev, hy⟩).2
  -- Which object has the byte decides, and no other structure has it.
  have hother : ∀ part, x ∈ dev.own part →
      x ∈ c.own (.device slot part) ∧ ∀ o, x ∈ c.own o → o = .device slot part := by
    intro part hpart
    refine ⟨⟨dev, hdev, hpart⟩, fun o ho => ?_⟩
    by_contra hne
    exact Set.disjoint_left.mp (howned.apart.disjoint hne) ho ⟨dev, hdev, hpart⟩
  obtain ⟨htype, hge, hlt⟩ := hx
  rcases hconfined.rings i tr hring k htype with hempty | ⟨hbuffer, hlength⟩ |
    ⟨p, hdriver, hbuffer, hlength⟩
  · rw [hempty] at hlt
    exact absurd hlt (Nat.not_lt.mpr hge)
  · rw [hbuffer] at hge hlt
    refine ⟨.object, Or.inl rfl, hother .object ?_⟩
    exact mem_bytesAt_of_part hconfined.placed (hbelow .object) hborder (by decide)
      ⟨hge, Nat.lt_of_lt_of_le hlt (Nat.add_le_add_left hlength _)⟩
  · rw [hbuffer] at hge hlt
    obtain ⟨d, hd⟩ := Option.ne_none_iff_exists'.mp hdriver
    have hp := (hconfined.drivers p d hd).1
    have hobject : bytesAt p Device.hidSizeOf.toNat ⊆ Set.Iio c.pool.border :=
      fun y hy => hbelow (.driver p) ⟨hdriver, hy⟩
    refine ⟨.driver p, Or.inr ⟨p, rfl⟩, hother (.driver p) ⟨hdriver, ?_⟩⟩
    exact mem_bytesAt_of_part hp hobject hborder (by decide)
      ⟨hge, Nat.lt_of_lt_of_le hlt (Nat.add_le_add_left hlength _)⟩

end Run

/-- A device is addressed and asked for its first descriptor. -/
def askActions : List Action :=
  addressActions ++ [.context 1 (slotContextOf 1), .event (portsShow fun _ => 0x200003)
    (commandCompletionEvent (sampleController.cr.slotAddr 1) 1 1)]

/-- The Data Stage TRB of the first request is the second TRB of the control ring, and its
bytes belong to the device. -/
theorem run_ownBuffers_sample : ∃ dev tr,
    (performed (fun _ _ _ => True) sampleController askActions).devmgr.devices 1 = some dev ∧
      dev.transferRings 0 = some tr ∧ dev.buffer.toNat ∈ (tr.mem 1).dataBytes ∧
      ∃ part, dev.buffer.toNat ∈
        (performed (fun _ _ _ => True) sampleController askActions).own (.device 1 part) := by
  have hasked : ((performed (fun _ _ _ => True) sampleController askActions).devmgr.devices 1).any
      (fun dev => (dev.transferRings 0).any fun tr =>
        (tr.mem 1).trbType == dataStageType && (tr.mem 1).parameter == dev.buffer &&
          Device.transferLength (tr.mem 1) == 256) = true := by decide +kernel
  obtain ⟨dev, hdev, hasked⟩ := (Option.any_eq_true _ _).mp hasked
  obtain ⟨tr, hring, hasked⟩ := (Option.any_eq_true _ _).mp hasked
  obtain ⟨⟨htype, hparameter⟩, hlength⟩ : ((tr.mem 1).trbType = dataStageType ∧
      (tr.mem 1).parameter = dev.buffer) ∧ Device.transferLength (tr.mem 1) = 256 := by
    simpa using hasked
  have hx : dev.buffer.toNat ∈ (tr.mem 1).dataBytes := by
    refine ⟨Or.inr htype, ?_⟩
    rw [hparameter, hlength]
    exact ⟨Nat.le_refl _, Nat.lt_add_of_pos_right (by decide)⟩
  obtain ⟨writes, hinit⟩ := sampleController_initialized
  obtain ⟨part, -, hpart, -⟩ := run_ownBuffers (by unfold MemoryPool.Roomy; decide) hinit
    (performed_run (fun _ _ _ => True) sampleController askActions) hdev hring hx
  exact ⟨dev, tr, hdev, hring, hx, part, hpart⟩

end Controller

end Mikanos.Xhci
