import Mikanos.Usb.DeviceFrame

/-!
# Interrupt transfers of a HID driver

A HID driver keeps one Normal TRB on the ring of its interrupt-IN endpoint, which
points at its `buf_`.  When the controller reports its completion, the driver
looks at the report, copies it to `previous_buf_` and pushes the next TRB.

`Listening` is the state in which this works: the driver is where
`class_drivers_` says, its endpoint has a ring, and no other ring shares the
memory of that ring.  In it a success event is processed as `input_processed`
says, and an event that reports a failure changes nothing at all, so that
nothing arms the endpoint again.
-/

namespace Mikanos.Xhci.Device

open Mikanos.Usb

/-! ## The report -/

/-- `buf_` of the driver at `p` is there. -/
structure HasBuffer (m : Dma) (p : Addr) : Prop where
  nonnull : hidBuffer p ≠ nullptr
  size : (m.bytes (hidBuffer p)).length = kBufferSize

/-- What `OnDataReceived` tells the observers when `buf_` has these bytes. -/
def notificationsOf (d : HidDriver) (bytes : List (BitVec 8)) : List Notification :=
  match d.kind with
  | .keyboard => keyboardOnDataReceived d ((bytes.drop 2).take 6)
  | .mouse => mouseOnDataReceived d (bytes.getD 1 0) (bytes.getD 2 0)

/-- The driver after `OnDataReceived` and the copy of `len` bytes. -/
def afterReport (d : HidDriver) (bytes : List (BitVec 8)) (len : Int) : HidDriver :=
  { d with
    notified := d.notified ++ notificationsOf d bytes
    previousBuf := bytes.take len.toNat ++ d.previousBuf.drop len.toNat }

/-- The bytes of an object that is there. -/
theorem byte_eq_ok {m : Dma} {p : Addr} {i : Nat} (hp : p ≠ nullptr)
    (hi : i < (m.bytes p).length) : m.byte p i = .ok ((m.bytes p).getD i 0) := by
  unfold Dma.byte
  rw [if_neg hp, List.getElem?_eq_getElem hi, List.getD_eq_getElem?_getD,
    List.getElem?_eq_getElem hi]
  rfl

/-- A range of bytes that lies in its object is read as these bytes, by induction on its length.
-/
theorem readBytes_eq_ok {m : Dma} {p : Addr} (hp : p ≠ nullptr) (n : Nat) :
    ∀ i, i + n ≤ (m.bytes p).length →
      readBytes m p i n = .ok (((m.bytes p).drop i).take n) := by
  induction n with
  | zero =>
      intro i _
      rw [List.take_zero]
      rfl
  | succ n ih =>
      intro i hi
      have hrest : (List.range' (i + 1) n).mapM (m.byte p) =
          .ok (((m.bytes p).drop (i + 1)).take n) := ih (i + 1) (by omega)
      have hlt : i < (m.bytes p).length := by omega
      unfold readBytes
      rw [List.range'_succ, List.mapM_cons, byte_eq_ok hp hlt, hrest,
        List.drop_eq_getElem_cons hlt, List.take_succ_cons, List.getD_eq_getElem?_getD,
        List.getElem?_eq_getElem hlt]
      rfl

/-- `OnDataReceived` on a buffer that is there returns, and adds to what has been told what the
report in the buffer says. -/
theorem driverOnDataReceived_eq_ok {m : Dma} {p : Addr} (h : HasBuffer m p) (d : HidDriver) :
    driverOnDataReceived m p d =
      .ok { d with notified := d.notified ++ notificationsOf d (m.bytes (hidBuffer p)) } := by
  have hsize : (m.bytes (hidBuffer p)).length = 1024 := h.size
  unfold driverOnDataReceived notificationsOf
  cases d.kind with
  | keyboard =>
      simp only
      rw [readBytes_eq_ok h.nonnull 6 2 (by omega)]
      rfl
  | mouse =>
      simp only
      rw [byte_eq_ok h.nonnull (by omega : 1 < _), byte_eq_ok h.nonnull (by omega : 2 < _)]
      rfl

/-- The copy to `previous_buf_` takes as many bytes as the report has and leaves the others as
they were. -/
theorem keepReport_eq_ok {m : Dma} {p : Addr} (h : HasBuffer m p) (d : HidDriver) {len : Int}
    (hlen : len ≤ kBufferSize) :
    keepReport m p d len = .ok { d with
      previousBuf := (m.bytes (hidBuffer p)).take len.toNat ++ d.previousBuf.drop len.toNat } := by
  have hfits : 0 + len.toNat ≤ (m.bytes (hidBuffer p)).length := by
    rw [h.size]
    unfold kBufferSize at *
    omega
  unfold keepReport
  rw [if_neg (not_lt.mpr hlen), readBytes_eq_ok h.nonnull len.toNat 0 hfits, List.drop_zero]
  rfl

/-! ## The ring of the endpoint -/

/-- The fields of a Normal TRB that a completion uses, its type, buffer and length, are those it
was made with. -/
theorem normalTRB_data (buf : Addr) (len : BitVec 17) :
    (normalTRB buf len).trbType = normalType ∧ (normalTRB buf len).parameter = buf ∧
      transferLength (normalTRB buf len) = len := by
  refine ⟨?_, ?_, ?_⟩
  · unfold normalTRB Trb.trbType
    rw [Trb.bits_setBits_of_disjoint _ _ _ _ _ _ (by decide),
      Trb.bits_setBits_of_disjoint _ _ _ _ _ _ (by decide),
      Trb.bits_setBits_of_disjoint _ _ _ _ _ _ (by decide),
      Trb.bits_setParameter_of_ne _ _ _ _ (by decide) (by decide),
      Trb.bits_setBits_same _ _ _ _ (by decide)]
    rfl
  · have hparameter : (normalTRB buf len).parameter =
        ((Trb.zero.setBits 3 10 (1 : BitVec 6)).setParameter buf).parameter := by
      unfold normalTRB
      apply Trb.parameter_congr
      · rw [Trb.data_setBits_of_ne _ _ _ (by decide), Trb.data_setBits_of_ne _ _ _ (by decide),
          Trb.data_setBits_of_ne _ _ _ (by decide)]
      · rw [Trb.data_setBits_of_ne _ _ _ (by decide), Trb.data_setBits_of_ne _ _ _ (by decide),
          Trb.data_setBits_of_ne _ _ _ (by decide)]
    rw [hparameter, Trb.parameter_setParameter]
  · unfold normalTRB transferLength
    rw [Trb.bits_setBits_of_disjoint _ _ _ _ _ _ (by decide),
      Trb.bits_setBits_of_disjoint _ _ _ _ _ _ (by decide),
      Trb.bits_setBits_same _ _ _ _ (by decide)]

/-- A pointer into a ring leads to the slot it names, if it leads into no other ring of the
device. -/
theorem trbAt_ring (m : Dma) {dev : Device} {i : Fin 31} {tr : Ring} {q : Addr} {k : Nat}
    (hring : dev.transferRings i = some tr) (hslot : tr.slotAt q = some k)
    (hapart : ∀ j tr', j ≠ i → dev.transferRings j = some tr' → tr'.slotAt q = none) :
    trbAt m dev q = tr.mem k := by
  have hother : ∀ j, j ≠ i →
      ((dev.transferRings j).bind fun tr' => (tr'.slotAt q).map tr'.mem) = none := by
    intro j hj
    cases hj' : dev.transferRings j with
    | none => rfl
    | some tr' =>
        rw [Option.bind_some, hapart j tr' hj hj']
        rfl
  have hfound : (List.finRange 31).findSome? (fun j =>
      (dev.transferRings j).bind fun tr' => (tr'.slotAt q).map tr'.mem) = some (tr.mem k) := by
    obtain ⟨before, after, hsplit⟩ := List.append_of_mem (List.mem_finRange i)
    have hnodup := List.nodup_finRange 31
    rw [hsplit] at hnodup ⊢
    have hbefore : ∀ j ∈ before, j ≠ i := by
      rintro j hj rfl
      exact (List.nodup_append.mp hnodup).2.2 j hj j List.mem_cons_self rfl
    rw [List.findSome?_eq_some_iff]
    refine ⟨before, i, after, rfl, ?_, fun j hj => hother j (hbefore j hj)⟩
    rw [hring, Option.bind_some, hslot]
    rfl
  unfold trbAt
  rw [hfound]

/-- The driver at `p` receives its reports through the ring `tr` at subscript `i`. -/
structure Listening (dev : Device) (p : Addr) (d : HidDriver) (i : Fin 31) (tr : Ring) :
    Prop where
  nonnull : p ≠ nullptr
  own : i ≠ 0
  driver : dev.drivers p = some d
  endpoint : d.epInterruptIn.address = (i.val : Int) + 1
  isIn : d.epInterruptIn.isIn = true
  packet : 0 ≤ d.inPacketSize ∧ d.inPacketSize ≤ kBufferSize
  classDriver : ∀ k : Fin 16, d.epInterruptIn.number = k.val → dev.classDrivers k = p
  ring : dev.transferRings i = some tr
  buffer : tr.buf ≠ nullptr
  fits : 16 * tr.bufSize < 2 ^ 64
  index : tr.writeIndex + 1 < tr.bufSize
  apart : ∀ j tr', j ≠ i → dev.transferRings j = some tr' →
    ∀ k, k < tr.bufSize → tr'.slotAt (tr.slotAddr k) = none

/-- A Normal TRB for the report buffer of the driver, still on the ring. -/
def Awaits (d : HidDriver) (p : Addr) (tr : Ring) (q : Addr) : Prop :=
  ∃ k, k + 1 < tr.bufSize ∧ q = tr.slotAddr k ∧
    (tr.mem k).stamp false =
      (normalTRB (hidBuffer p) (BitVec.ofInt 17 d.inPacketSize)).stamp false

/-- The ring after one more TRB for the report buffer. -/
def armed (d : HidDriver) (p : Addr) (tr : Ring) : Ring :=
  tr.advance.applyStores (tr.pushStores
    (normalTRB (hidBuffer p) (BitVec.ofInt 17 d.inPacketSize)))

section Ring

variable {d : HidDriver} {p : Addr} {tr : Ring}

theorem armed_frame (d : HidDriver) (p : Addr) (tr : Ring) :
    (armed d p tr).buf = tr.buf ∧ (armed d p tr).bufSize = tr.bufSize := by
  obtain ⟨hbuf, hsize, -, -⟩ := Ring.applyStores_frame
    (tr.pushStores (normalTRB (hidBuffer p) (BitVec.ofInt 17 d.inPacketSize))) tr.advance
  exact ⟨hbuf.trans (Ring.advance_buf tr), hsize.trans (Ring.advance_bufSize tr)⟩

theorem armed_slotAddr (d : HidDriver) (p : Addr) (tr : Ring) :
    (armed d p tr).slotAddr = tr.slotAddr := by
  funext k
  rw [Ring.slotAddr, Ring.slotAddr, (armed_frame d p tr).1]

/-- The next TRB is put before the end of the buffer again: with the Link TRB at its last slot
the write index goes back to 0. -/
theorem armed_index (h : tr.writeIndex + 1 < tr.bufSize) :
    (armed d p tr).writeIndex + 1 < (armed d p tr).bufSize := by
  obtain ⟨-, hsize⟩ := armed_frame d p tr
  obtain ⟨-, -, hindex, -⟩ := Ring.applyStores_frame
    (tr.pushStores (normalTRB (hidBuffer p) (BitVec.ofInt 17 d.inPacketSize))) tr.advance
  rw [hsize]
  change ((tr.advance.applyStores _).writeIndex + 1 < _)
  rw [hindex, Ring.advance]
  split
  · simp only
    omega
  · simp only
    omega

/-- The TRB for the next report is on the ring, at the slot where the write index was. -/
theorem awaits_armed (h : tr.writeIndex + 1 < tr.bufSize) :
    Awaits d p (armed d p tr) (tr.slotAddr tr.writeIndex) := by
  refine ⟨tr.writeIndex, ?_, ?_, ?_⟩
  · rw [(armed_frame d p tr).2]
    exact h
  · rw [armed_slotAddr]
  · have hmem := (Ring.push_mem tr
      (normalTRB (hidBuffer p) (BitVec.ofInt 17 d.inPacketSize))).1
    unfold armed
    rw [hmem, Trb.stamp_stamp]

/-- The others are still there: where the ring has come round, the new TRB is the
same as the old one. -/
theorem Awaits.armed {q : Addr} (h : Awaits d p tr q) : Awaits d p (armed d p tr) q := by
  obtain ⟨k, hk, rfl, hmem⟩ := h
  obtain ⟨hnew, hold⟩ := Ring.push_mem tr
    (normalTRB (hidBuffer p) (BitVec.ofInt 17 d.inPacketSize))
  refine ⟨k, ?_, ?_, ?_⟩
  · rw [(armed_frame d p tr).2]
    exact hk
  · rw [armed_slotAddr]
  · unfold Device.armed
    rcases eq_or_ne k tr.writeIndex with rfl | hne
    · rw [hnew, Trb.stamp_stamp]
    · rw [hold k hne (by omega), hmem]

end Ring

/-! ## Transfer Events of the endpoint -/

/-- The device after a report: the driver has seen it and armed the endpoint
again. -/
def rearmed (dev : Device) (p : Addr) (d : HidDriver) (i : Fin 31) (tr : Ring)
    (bytes : List (BitVec 8)) (len : Int) : Device :=
  ((dev.setDriver p (afterReport d bytes len)).setRing i (some (armed d p tr))).ringDoorbell
    (i.val + 1)

section Event

variable {m : Dma} {dev : Device} {p : Addr} {d : HidDriver} {i : Fin 31} {tr : Ring}

/-- The number of a ring plus one, as the events and doorbells have it, is the subscript of that
ring. -/
theorem dciIndex_succ (i : Fin 31) : dciIndex ((i.val : Int) + 1) = .ok i := by
  have hi := i.isLt
  unfold dciIndex
  rw [dif_pos (by omega)]
  congr 1
  apply Fin.ext
  simp only
  omega

/-- An address of an awaited TRB leads to that TRB. -/
theorem Listening.trbAt (h : Listening dev p d i tr) (m : Dma) {q : Addr} (hq : Awaits d p tr q) :
    (trbAt m dev q).stamp false =
      (normalTRB (hidBuffer p) (BitVec.ofInt 17 d.inPacketSize)).stamp false := by
  obtain ⟨k, hk, rfl, hmem⟩ := hq
  have hslot : tr.slotAt (tr.slotAddr k) = some k := trbIndex_trbAddr tr.buf (by omega) h.fits
  rw [trbAt_ring m h.ring hslot fun j tr' hj hj' => h.apart j tr' hj hj' k (by omega), hmem]

/-- **A success event is an interrupt completion**: its pointer leads to the Normal TRB, which
gives the buffer and, with the residual, the number of bytes. -/
theorem Listening.decode (h : Listening dev p d i tr) (m : Dma) {trb : Trb}
    (hq : Awaits d p tr trb.parameter) (hok : transferFailed trb = false)
    (hep : (eventEndpointId trb).toNat = i.val + 1) :
    decodeTransferEvent m dev trb = (.interrupt d.epInterruptIn (hidBuffer p)
      (transferred (BitVec.ofInt 17 d.inPacketSize) (eventTransferLength trb)), dev) := by
  have hnot : ¬(eventCompletionCode trb ≠ 1 ∧ eventCompletionCode trb ≠ 13) :=
    of_decide_eq_false hok
  have hat := h.trbAt m hq
  obtain ⟨htype, hparameter, hlength⟩ :=
    normalTRB_data (hidBuffer p) (BitVec.ofInt 17 d.inPacketSize)
  rw [← Trb.trbType_stamp _ false, ← hat, Trb.trbType_stamp] at htype
  rw [← Trb.parameter_stamp _ false, ← hat, Trb.parameter_stamp] at hparameter
  have htransfer : transferLength (Device.trbAt m dev trb.parameter) =
      BitVec.ofInt 17 d.inPacketSize := by
    unfold transferLength at hlength ⊢
    rw [← Trb.bits_stamp _ false 2 _ (Or.inl (by decide)), hat,
      Trb.bits_stamp _ false 2 _ (Or.inl (by decide)), hlength]
  have hendpoint : (⟨((eventEndpointId trb).toNat : Int)⟩ : EndpointID) = d.epInterruptIn := by
    have haddress := h.endpoint
    unfold EndpointID.address at haddress
    rw [hep]
    cases hd : d.epInterruptIn with
    | mk addr =>
        rw [hd] at haddress
        simp only at haddress
        rw [haddress]
        rfl
  rw [decodeTransferEvent, if_neg hnot]
  simp only [if_pos htype, hparameter, htransfer, hendpoint]

/-- `InterruptIn` on the ring of the endpoint. -/
theorem Listening.interruptIn (h : Listening dev p d i tr) (d' : HidDriver)
    (hep : d'.epInterruptIn = d.epInterruptIn) (hsize : d'.inPacketSize = d.inPacketSize) :
    (dev.setDriver p d').interruptIn d'.epInterruptIn (hidBuffer p) d'.inPacketSize =
      .ok (.kSuccess,
        ((dev.setDriver p d').setRing i (some (armed d p tr))).ringDoorbell (i.val + 1)) := by
  have hring : (dev.setDriver p d').transferRings i = some tr := h.ring
  unfold Device.interruptIn
  simp only [hep, hsize, h.endpoint, dciIndex_succ, bind, bind_ok, hring, Ring.push,
    if_neg h.buffer]
  rfl

/-- **A success event is processed** with any residual length: the driver sees its
report, and the endpoint is armed again. -/
theorem input_processed (h : Listening dev p d i tr) (hbuf : HasBuffer m p)
    (obs : DefaultObservers) (pool : Pool) {trb : Trb} (hq : Awaits d p tr trb.parameter)
    (hok : transferFailed trb = false) (hep : (eventEndpointId trb).toNat = i.val + 1) :
    onTransferEventReceived m obs dev pool trb =
      .ok (.kSuccess, rearmed dev p d i tr (m.bytes (hidBuffer p))
        (transferred (BitVec.ofInt 17 d.inPacketSize) (eventTransferLength trb)), pool) := by
  have hnumber : 0 ≤ d.epInterruptIn.number ∧ d.epInterruptIn.number < 16 := by
    have hi := i.isLt
    have haddress := h.endpoint
    unfold EndpointID.address at haddress
    unfold EndpointID.number
    omega
  have hserved := h.classDriver ⟨d.epInterruptIn.number.toNat, by omega⟩
    (Int.toNat_of_nonneg hnumber.1).symm
  have hdriver := driverAt_of_drivers h.driver
  have hlen : transferred (BitVec.ofInt 17 d.inPacketSize) (eventTransferLength trb) ≤
      kBufferSize := by
    have hle := transferred_le (BitVec.ofInt 17 d.inPacketSize) (eventTransferLength trb)
    have hpacket := h.packet
    have htoNat : ((BitVec.ofInt 17 d.inPacketSize).toNat : Int) = d.inPacketSize := by
      rw [BitVec.toNat_ofInt]
      unfold kBufferSize at hpacket
      omega
    omega
  rw [onTransferEventReceived, h.decode m hq hok hep]
  simp only [complete, onInterruptCompleted, dif_pos hnumber, hserved, ne_eq, h.nonnull,
    not_false_eq_true, if_true, driverOnInterruptCompleted, hdriver, bind, bind_ok, h.isIn,
    driverOnDataReceived_eq_ok hbuf, keepReport_eq_ok hbuf _ hlen]
  have hinterrupt := h.interruptIn (afterReport d (m.bytes (hidBuffer p))
    (transferred (BitVec.ofInt 17 d.inPacketSize) (eventTransferLength trb))) rfl rfl
  change (Except.bind (Device.interruptIn _ _ _ _) _) = _
  unfold afterReport at hinterrupt
  rw [hinterrupt]
  rfl

/-- The driver listens on, at its ring with one TRB more, and nothing else about the endpoint
has changed. -/
theorem Listening.rearmed (h : Listening dev p d i tr) (bytes : List (BitVec 8)) (len : Int) :
    Listening (rearmed dev p d i tr bytes len) p (afterReport d bytes len) i (armed d p tr) where
  nonnull := h.nonnull
  own := h.own
  driver := Function.update_self _ _ _
  endpoint := h.endpoint
  isIn := h.isIn
  packet := h.packet
  classDriver := h.classDriver
  ring := Function.update_self _ _ _
  buffer := by
    rw [(armed_frame d p tr).1]
    exact h.buffer
  fits := by
    rw [(armed_frame d p tr).2]
    exact h.fits
  index := armed_index h.index
  apart := by
    intro j tr' hj hj' k hk
    rw [(armed_frame d p tr).2] at hk
    rw [armed_slotAddr]
    have hold : dev.transferRings j = some tr' := (Function.update_of_ne hj _ _).symm.trans hj'
    exact h.apart j tr' hj hold k hk

end Event

end Mikanos.Xhci.Device
