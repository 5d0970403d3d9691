import Mikanos.Usb.Memory
import Mikanos.Xhci.TrbStores

/-!
# The event ring

`EventRing` is the consumer side of a ring the controller writes.  The driver
keeps only its cycle state in software; its position is the dequeue pointer in
the ERDP register of the primary interrupter, which shares the register with
four flag bits.  `Pop` reads the pointer, moves it to the next TRB of the one
segment, back to the segment's start at the end, and writes it back with the
flags as it found them.

`processEvent` is `ProcessEvent` of `xhci.cpp` for given event handlers: it
tests the cycle bit at the dequeue pointer, dispatches on the TRB's type and
pops the event whatever the handler returned.
-/

namespace Mikanos.Xhci

open BitField Mikanos.Usb

/-- `union EventRingSegmentTableEntry`. -/
structure SegmentTableEntry where
  ringSegmentBaseAddress : Addr
  ringSegmentSize : BitVec 16

/-- The registers of the primary interrupter an event ring uses. -/
structure InterrupterRegisterSet where
  erstsz : BitVec 32
  erstba : BitVec 64
  erdp : BitVec 64

/-- `ERDP_Bitmap::Pointer()`. -/
def erdpPointer (erdp : BitVec 64) : Addr := (field erdp 4 60).setWidth 64 <<< 4

/-- `ERDP_Bitmap::SetPointer(value)`. -/
def erdpSetPointer (erdp : BitVec 64) (value : Addr) : BitVec 64 :=
  setField erdp 4 ((value >>> 4).setWidth 60)

/-- The pointer in ERDP reads back as written, whatever the flag bits are. -/
theorem erdpPointer_setPointer (erdp : BitVec 64) {value : Addr} (h : 16 ∣ value.toNat) :
    erdpPointer (erdpSetPointer erdp value) = value := by
  rw [erdpPointer, erdpSetPointer, field_setField_same _ _ _ (by decide), Trb.shl_shr_four h]

/-- Writing the pointer leaves the flag bits as they were. -/
theorem erdpFlags_setPointer (erdp : BitVec 64) (value : Addr) :
    field (erdpSetPointer erdp value) 0 4 = field erdp 0 4 :=
  field_setField_of_disjoint _ _ _ _ (Or.inl (by decide))

/-- `class EventRing` with the registers behind `interrupter_`, the segment
table behind `erst_` and, in `mem i`, the memory at `buf_[i]`. -/
structure EventRing where
  buf : Addr
  bufSize : Nat
  cycleBit : Bool
  erst : Addr
  segment : SegmentTableEntry
  interrupter : InterrupterRegisterSet
  mem : Nat → Trb

namespace EventRing

/-- `EventRing::WriteDequeuePointer(p)`. -/
def writeDequeuePointer (r : EventRing) (p : Addr) : EventRing :=
  { r with interrupter :=
      { r.interrupter with erdp := erdpSetPointer r.interrupter.erdp p } }

/-- `EventRing::ReadDequeuePointer()`. -/
def readDequeuePointer (r : EventRing) : Addr := erdpPointer r.interrupter.erdp

/-- `ERSTSZ` with table size `value`. -/
def writeTableSize (r : EventRing) (value : BitVec 16) : EventRing :=
  { r with interrupter :=
      { r.interrupter with erstsz := setField r.interrupter.erstsz 0 value } }

/-- `ERSTBA` with table address `value`. -/
def writeTablePointer (r : EventRing) (value : Addr) : EventRing :=
  { r with interrupter :=
      { r.interrupter with
        erstba := setField r.interrupter.erstba 6 (BitVec.setWidth 58 (value >>> 6)) } }

/-- The part of `Initialize` after both allocations succeeded. -/
def setUp (r : EventRing) : EventRing :=
  let r' : EventRing := { r with segment := ⟨r.buf, BitVec.ofNat 16 r.bufSize⟩ }
  ((r'.writeTableSize 1).writeDequeuePointer r.buf).writeTablePointer r.erst

/-- The part of `Initialize` after the allocation of the segment table. -/
def useTable (r : EventRing) (block : Addr × Pool) : Error × EventRing × Pool :=
  let r := { r with erst := block.1 }
  if block.1 = nullptr then (.kNoEnoughMemory, r, block.2)
  else (.kSuccess, r.setUp, block.2)

/-- The part of `Initialize` after the allocation of the segment. -/
def useBlock (r : EventRing) (bufSize : Nat) (block : Addr × Pool) : Error × EventRing × Pool :=
  let r := { r with cycleBit := true, bufSize := bufSize, buf := block.1 }
  if block.1 = nullptr then (.kNoEnoughMemory, r, block.2)
  else
    -- memset(buf_, 0, buf_size_ * sizeof(TRB)), the product being a size_t
    let cleared := (BitVec.ofNat 64 bufSize * 16).toNat / 16
    let r := { r with mem := fun i => if i < cleared then Trb.zero else r.mem i }
    r.useTable (block.2.allocArray 16 1 64 (64 * 1024))

/-- `EventRing::Initialize(buf_size, interrupter)`. -/
def initializeEventRing (r : EventRing) (bufSize : Nat) (pool : Pool) : Error × EventRing × Pool :=
  r.useBlock bufSize (pool.allocArray 16 (BitVec.ofNat 64 bufSize) 64 (64 * 1024))

/-- `*EventRing::Front()`: the TRB at the dequeue pointer. -/
def front (r : EventRing) : Except Fault Trb :=
  match trbIndex r.buf r.bufSize r.readDequeuePointer with
  | none => .error .outOfBounds
  | some i => .ok (r.mem i)

/-- `EventRing::HasFront()`. -/
def hasFront (r : EventRing) : Except Fault Bool := do
  let trb ← r.front
  return trb.cycleBit == r.cycleBit

/-- `EventRing::Pop()`. -/
def pop (r : EventRing) : EventRing :=
  let p := r.readDequeuePointer + 16
  let segmentBegin := r.segment.ringSegmentBaseAddress
  let segmentEnd := segmentBegin + r.segment.ringSegmentSize.setWidth 64 * 16
  if p = segmentEnd then { r with cycleBit := !r.cycleBit }.writeDequeuePointer segmentBegin
  else r.writeDequeuePointer p

/-- What a driver finds that calls `HasFront`, `Front` and `Pop` again and again:
these events in this order, and then none. -/
def Shows (r : EventRing) : List Trb → Prop
  | [] => r.hasFront = .ok false
  | trb :: rest => r.hasFront = .ok true ∧ r.front = .ok trb ∧ r.pop.Shows rest

/-- The body of `ProcessEvent` between `Front` and `Pop`, for given handlers of
the three kinds of event. -/
def dispatch {σ : Type} (onTransfer onPortStatusChange onCommandCompletion :
    Trb → σ → Except Fault (Error × σ)) (trb : Trb) (s : σ) : Except Fault (Error × σ) :=
  if trb.trbType = transferEventType then onTransfer trb s
  else if trb.trbType = portStatusChangeEventType then onPortStatusChange trb s
  else if trb.trbType = commandCompletionEventType then onCommandCompletion trb s
  else .ok (.kNotImplemented, s)

/-- `ProcessEvent(xhc)`, for the given effect `handle` of dispatching an event.
No handler touches the event ring. -/
def processEvent {σ : Type} (handle : Trb → σ → Except Fault (Error × σ))
    (r : EventRing) (s : σ) : Except Fault (Error × EventRing × σ) := do
  if ← r.hasFront then
    let trb ← r.front
    let (err, s) ← handle trb s
    return (err, r.pop, s)
  else return (.kSuccess, r, s)

/-! ## Initialization -/

/-- An event ring as a successful `Initialize(n)` leaves it: one segment of `n`
zero TRBs on a 64-byte boundary, the dequeue pointer at its start. -/
structure Fresh (r : EventRing) (n : Nat) : Prop where
  aligned : 64 ∣ r.buf.toNat
  size : r.bufSize = n
  cycle : r.cycleBit = true
  base : r.segment.ringSegmentBaseAddress = r.buf
  count : r.segment.ringSegmentSize = BitVec.ofNat 16 n
  dequeue : r.readDequeuePointer = r.buf
  clear : ∀ i, i < n → r.mem i = Trb.zero

/-- The dequeue pointer reads back as written. -/
theorem readDequeuePointer_write (r : EventRing) {p : Addr} (h : 16 ∣ p.toNat) :
    (r.writeDequeuePointer p).readDequeuePointer = p :=
  erdpPointer_setPointer _ h

/-- Setting up the segment table and the registers of a cleared segment. -/
theorem setUp_fresh {r : EventRing} {n : Nat} (halign : 64 ∣ r.buf.toNat) (hsize : r.bufSize = n)
    (hcycle : r.cycleBit = true) (hclear : ∀ i, i < n → r.mem i = Trb.zero) :
    r.setUp.Fresh n where
  aligned := halign
  size := hsize
  cycle := hcycle
  base := rfl
  count := congrArg (BitVec.ofNat 16) hsize
  dequeue := erdpPointer_setPointer _ ((show 16 ∣ 64 by decide).trans halign)
  clear := hclear

/-- Once its segment table is allocated, an event ring is as `Initialize` promises: empty, of
its size, and with its dequeue pointer at the start. -/
theorem useTable_fresh {r r' : EventRing} {n : Nat} {block : Addr × Pool} {pool' : Pool}
    (halign : 64 ∣ r.buf.toNat) (hsize : r.bufSize = n) (hcycle : r.cycleBit = true)
    (hclear : ∀ i, i < n → r.mem i = Trb.zero)
    (h : r.useTable block = (.kSuccess, r', pool')) : r'.Fresh n := by
  rw [useTable] at h
  by_cases hnull : block.1 = nullptr
  · rw [if_pos hnull] at h
    cases h
  · rw [if_neg hnull] at h
    cases h
    exact setUp_fresh (r := { r with erst := block.1 }) halign hsize hcycle hclear

/-- Once its segment is allocated and cleared, an event ring that has been initialized with
success is a fresh one. -/
theorem useBlock_fresh {r r' : EventRing} {n : Nat} {block : Addr × Pool} {pool' : Pool}
    (hfit : 16 * n < 2 ^ 64) (halign : 64 ∣ block.1.toNat)
    (h : r.useBlock n block = (.kSuccess, r', pool')) : r'.Fresh n := by
  rw [useBlock, toNat_size_div hfit] at h
  by_cases hnull : block.1 = nullptr
  · rw [if_pos hnull] at h
    cases h
  · rw [if_neg hnull] at h
    refine useTable_fresh ?_ ?_ ?_ ?_ h
    · exact halign
    · rfl
    · rfl
    · exact fun i hi => if_pos hi

/-- **A successful `Initialize`** leaves a fresh event ring. -/
theorem initializeEventRing_success {r r' : EventRing} {n : Nat} {pool pool' : Pool}
    (hfit : 16 * n < 2 ^ 64)
    (h : r.initializeEventRing n pool = (.kSuccess, r', pool')) : r'.Fresh n := by
  have hdvd : 2 ^ 6 ∣ (pool.allocArray 16 (BitVec.ofNat 64 n) 64 (64 * 1024)).1.toNat :=
    dvd_allocMem (j := 16) rfl rfl (by decide)
  exact useBlock_fresh hfit hdvd h

end EventRing

end Mikanos.Xhci
