import Mikanos.Xhci.EventRing
import Mathlib.Logic.Relation

/-!
# The event ring is a queue

The controller fills event TRBs word by word, the cycle bit last, while the
driver calls `ProcessEvent` again and again; either side may run between any
two steps of the other.  One call has three steps: it tests the cycle bit at
the dequeue pointer, dispatches the event there, and pops it.

The controller knows the driver's position from ERDP alone and never has more
than `n - 1` events beyond it.  The driver's position is in that register and
its cycle state in software, and the two change together in `Pop`.
`EventSystem.Inv` ties both to one count `C` of popped events: ERDP points to
slot `C % n` and the cycle state is the lap bit of position `C`.  With that the
ring is a plain `CycleRing` of `n` slots.
-/

namespace Mikanos.Xhci

open CycleRing Relation

/-- Where the driver is in `ProcessEvent`. -/
inductive CallPhase where
  | idle
  | tested
  | dispatched
  deriving DecidableEq, Repr

/-- How many steps of the call are behind it. -/
def CallPhase.progress : CallPhase → Nat
  | .idle => 0
  | .tested => 1
  | .dispatched => 2

/-- The driver's event ring and its place in `ProcessEvent`, the controller's
enqueue position, cycle state and stores of the running event, and the history:
the events the controller has begun to write and those the driver has
dispatched or rejected. -/
structure EventSystem where
  ring : EventRing
  call : CallPhase
  enqueue : Nat
  producerCycle : Bool
  pending : List Store
  written : List Trb
  handled : List Trb

namespace EventSystem

/-- A freshly initialized ring and a controller at slot 0 with cycle 1. -/
def start (r : EventRing) : EventSystem := ⟨r, .idle, 0, true, [], [], []⟩

/-- The size of the segment, as the controller reads it from the table. -/
def segmentSize (s : EventSystem) : Nat := s.ring.segment.ringSegmentSize.toNat

/-- A step of a `ProcessEvent` call. -/
inductive DriverStep : EventSystem → EventSystem → Prop
  /-- The test of the cycle bit succeeds. -/
  | test {s : EventSystem} (hcall : s.call = .idle) (h : s.ring.hasFront = .ok true) :
      DriverStep s { s with call := .tested }
  /-- The event at the dequeue pointer is dispatched, or rejected. -/
  | dispatch {s : EventSystem} {trb : Trb} (hcall : s.call = .tested) (h : s.ring.front = .ok trb) :
      DriverStep s { s with call := .dispatched, handled := s.handled ++ [trb] }
  /-- The event is popped, whatever the handler returned. -/
  | pop {s : EventSystem} (hcall : s.call = .dispatched) :
      DriverStep s { s with call := .idle, ring := s.ring.pop }

/-- One step of the interleaving. -/
inductive Step : EventSystem → EventSystem → Prop
  /-- The controller begins to write event `t`, its words before the last in
  any order, while fewer than `n - 1` events are beyond the dequeue pointer. -/
  | write {s : EventSystem} (t : Trb) (ws : List (Fin 4)) (hws : ws.Perm [0, 1, 2]) {d : Nat}
      (hidle : s.pending = [])
      (hpos : trbIndex s.ring.buf s.ring.bufSize s.ring.readDequeuePointer = some d)
      (hroom : (s.enqueue + s.segmentSize - d) % s.segmentSize + 1 ≤ s.segmentSize - 1) :
      Step s { s with
        pending := fillStores s.enqueue (t.stamp s.producerCycle) ws
        written := s.written ++ [t.stamp s.producerCycle]
        enqueue := if s.enqueue + 1 = s.segmentSize then 0 else s.enqueue + 1
        producerCycle := if s.enqueue + 1 = s.segmentSize then !s.producerCycle
          else s.producerCycle }
  /-- The controller's next store. -/
  | store {s : EventSystem} {st : Store} {rest : List Store} (hst : s.pending = st :: rest) :
      Step s { s with ring := { s.ring with mem := st.apply s.ring.mem }, pending := rest }
  /-- The driver moves. -/
  | drive {s s' : EventSystem} (h : DriverStep s s') : Step s s'

/-- The events written completely. -/
def completed (s : EventSystem) : List Trb :=
  if s.pending = [] then s.written else s.written.dropLast

/-- **`processEvent` is a run of the driver**: a call that nothing interrupts
performs its three steps, or none. -/
theorem processEvent_is_run {s : EventSystem} {σ : Type}
    {handle : Trb → σ → Except Fault (Error × σ)} {σ₀ σ₁ : σ} {err : Error} {r' : EventRing}
    (hcall : s.call = .idle)
    (h : EventRing.processEvent handle s.ring σ₀ = .ok (err, r', σ₁)) :
    ∃ handled', ReflTransGen DriverStep s { s with ring := r', handled := handled' } := by
  cases hfront : s.ring.hasFront with
  | error f =>
      rw [EventRing.processEvent, hfront] at h
      cases h
  | ok found =>
      rw [EventRing.processEvent, hfront] at h
      cases found with
      | false =>
          cases h
          exact ⟨s.handled, ReflTransGen.refl⟩
      | true =>
          change (s.ring.front.bind fun trb => (handle trb σ₀).bind fun x =>
            .ok (x.1, s.ring.pop, x.2)) = _ at h
          cases htrb : s.ring.front with
          | error f =>
              rw [htrb] at h
              cases h
          | ok trb =>
              rw [htrb] at h
              change ((handle trb σ₀).bind fun x => .ok (x.1, s.ring.pop, x.2)) = _ at h
              cases hhandle : handle trb σ₀ with
              | error f =>
                  rw [hhandle] at h
                  cases h
              | ok x =>
                  rw [hhandle] at h
                  cases h
                  obtain ⟨ring, call, enqueue, producerCycle, pending, written, handled⟩ := s
                  obtain rfl : call = .idle := hcall
                  have htested := DriverStep.test rfl hfront
                  have hdispatched := ReflTransGen.head htested
                    (ReflTransGen.single (DriverStep.dispatch rfl htrb))
                  exact ⟨handled ++ [trb], hdispatched.tail (DriverStep.pop rfl)⟩

/-! ## The simulation -/

/-- What is published at position `v`. -/
def item (s : EventSystem) (v : Nat) : Trb := (s.written[v]?).getD Trb.zero

/-- How many events are dispatched when `C` are popped. -/
def dispatched (call : CallPhase) (C : Nat) : Nat := if call = .dispatched then C + 1 else C

/-- **The simulation invariant.**  `P` events are published, `Q` begun and `C`
popped. -/
structure Inv (n : Nat) (s : EventSystem) (P Q C : Nat) : Prop where
  aligned : 16 ∣ s.ring.buf.toNat
  size : s.ring.bufSize = n
  base : s.ring.segment.ringSegmentBaseAddress = s.ring.buf
  count : s.ring.segment.ringSegmentSize = BitVec.ofNat 16 n
  enqueue : s.enqueue = Q % n
  producerCycle : s.producerCycle = lap n Q
  begun : s.written.length = Q
  stamped : ∀ v, v < Q → (s.item v).cycleBit = lap n v
  room : Q + 1 ≤ C + n
  single : Q ≤ P + 1
  writing : Pending n s.item s.ring.mem P Q s.pending
  ring : CycleRing.Inv n Trb.cycleBit s.ring.mem s.item P C
  position : s.ring.readDequeuePointer = trbAddr s.ring.buf (C % n)
  cycle : s.ring.cycleBit = lap n C
  calling : s.call ≠ .idle → C < P
  handled : s.handled = s.written.take (dispatched s.call C)

section Invariant

variable {n : Nat} {s : EventSystem} {P Q C : Nat}

/-- The event at the dequeue pointer. -/
theorem Inv.front (hn2 : 2 ≤ n) (hn : n ≤ 65535) (h : s.Inv n P Q C) :
    s.ring.front = .ok (s.ring.mem (C % n)) := by
  have hslot : trbIndex s.ring.buf s.ring.bufSize s.ring.readDequeuePointer = some (C % n) := by
    rw [h.position, h.size]
    exact trbIndex_trbAddr _ (Nat.mod_lt C (by omega)) (by omega)
  rw [EventRing.front, hslot]

/-- **The test is exact.** It succeeds if and only if an event is published that has not been
popped, whatever stores are still pending. -/
theorem Inv.hasFront (hn2 : 2 ≤ n) (hn : n ≤ 65535) (h : s.Inv n P Q C) :
    s.ring.hasFront = .ok (decide (C < P)) := by
  have htest := h.ring.test_iff (by omega : 0 < n)
  rw [EventRing.hasFront, h.front hn2 hn, h.cycle]
  by_cases hlt : C < P
  · have heq := htest.mpr hlt
    simp [hlt, heq, bind, Except.bind, pure, Except.pure]
  · have hne : (s.ring.mem (C % n)).cycleBit ≠ lap n C := fun heq => hlt (htest.mp heq)
    simp [hlt, hne, bind, Except.bind, pure, Except.pure]

/-- The end of the segment, as `Pop` computes it. -/
theorem Inv.segmentEnd (hn : n ≤ 65535) (h : s.Inv n P Q C) :
    s.ring.segment.ringSegmentBaseAddress + s.ring.segment.ringSegmentSize.setWidth 64 * 16
      = trbAddr s.ring.buf n := by
  have hsize : (BitVec.ofNat 16 n).setWidth 64 * 16 = BitVec.ofNat 64 (16 * n) := by
    apply BitVec.eq_of_toNat_eq
    have h16 : (16 : BitVec 64).toNat = 16 := rfl
    rw [BitVec.toNat_mul, BitVec.toNat_setWidth, BitVec.toNat_ofNat, BitVec.toNat_ofNat, h16]
    omega
  rw [h.base, h.count, hsize, trbAddr]

/-- **`Pop` moves to the next position**: the register to its slot, the cycle
state to its lap bit, and nothing else. -/
theorem Inv.pop_eq (hn2 : 2 ≤ n) (hn : n ≤ 65535) (h : s.Inv n P Q C) :
    s.ring.pop = ({ s.ring with cycleBit := lap n (C + 1) } : EventRing).writeDequeuePointer
      (trbAddr s.ring.buf ((C + 1) % n)) := by
  have hnext : s.ring.readDequeuePointer + 16 = trbAddr s.ring.buf (C % n + 1) := by
    rw [h.position, trbAddr_succ]
  rw [EventRing.pop, hnext, h.segmentEnd hn, h.base]
  rcases slot_succ (by omega : 0 < n) C with ⟨hlt, hmod, -⟩ | ⟨hlast, hmod, -⟩
  · have hne : trbAddr s.ring.buf (C % n + 1) ≠ trbAddr s.ring.buf n := fun heq =>
      absurd (trbAddr_injective _ (n + 1) (by omega) (by omega) (by omega) heq) (by omega)
    rw [if_neg hne, hmod, lap_succ_of_lt hlt, ← h.cycle]
  · rw [hlast, if_pos rfl, hmod, trbAddr_zero, lap_succ_of_last (by omega) hlast, ← h.cycle]

/-- The segment size the controller sees. -/
theorem Inv.segmentSize (hn : n ≤ 65535) (h : s.Inv n P Q C) : s.segmentSize = n := by
  rw [EventSystem.segmentSize, h.count, BitVec.toNat_ofNat]
  exact Nat.mod_eq_of_lt (by omega)

/-- The controller begins an event: its stores become pending, in any order but for the one with
the cycle bit, which is the last. -/
theorem Inv.write (hn2 : 2 ≤ n) (hn : n ≤ 65535) (h : s.Inv n P Q C) {t : Trb}
    {ws : List (Fin 4)} (hws : ws.Perm [0, 1, 2]) {d : Nat} (hidle : s.pending = [])
    (hpos : trbIndex s.ring.buf s.ring.bufSize s.ring.readDequeuePointer = some d)
    (hroom : (s.enqueue + s.segmentSize - d) % s.segmentSize + 1 ≤ s.segmentSize - 1) :
    Inv n { s with
      pending := fillStores s.enqueue (t.stamp s.producerCycle) ws
      written := s.written ++ [t.stamp s.producerCycle]
      enqueue := if s.enqueue + 1 = s.segmentSize then 0 else s.enqueue + 1
      producerCycle := if s.enqueue + 1 = s.segmentSize then !s.producerCycle
        else s.producerCycle } P (Q + 1) C := by
  have hn0 : 0 < n := by omega
  have hwriting := h.writing
  rw [hidle] at hwriting
  obtain rfl : P = Q := hwriting.eq_of_nil
  have hroomP := h.room
  have hCP := h.ring.consumed_le
  -- The controller's own test of fullness, in positions.
  have hspace : P + 2 ≤ C + n := by
    rw [h.position, h.size, trbIndex_trbAddr _ (Nat.mod_lt C hn0) (by omega)] at hpos
    obtain rfl : C % n = d := Option.some.inj hpos
    rw [h.enqueue, h.segmentSize hn, slot_distance hCP (by omega)] at hroom
    omega
  let x := t.stamp s.producerCycle
  have hold : ∀ v, v < P → s.item v = ((s.written ++ [x])[v]?).getD Trb.zero := by
    intro v hv
    rw [item, List.getElem?_append_left (by rw [h.begun]; exact hv)]
  have hnew : ((s.written ++ [x])[P]?).getD Trb.zero = x := by
    rw [← h.begun, List.getElem?_append_right (Nat.le_refl _), Nat.sub_self]
    rfl
  have hnext : (if s.enqueue + 1 = s.segmentSize then 0 else s.enqueue + 1) = (P + 1) % n ∧
      (if s.enqueue + 1 = s.segmentSize then !s.producerCycle else s.producerCycle)
        = lap n (P + 1) := by
    rw [h.enqueue, h.segmentSize hn, h.producerCycle]
    rcases slot_succ hn0 P with ⟨hlt, hmod, -⟩ | ⟨hlast, hmod, -⟩
    · rw [if_neg (by omega), if_neg (by omega), hmod, lap_succ_of_lt hlt]
      exact ⟨rfl, rfl⟩
    · rw [if_pos hlast, if_pos hlast, hmod, lap_succ_of_last hn0 hlast]
      exact ⟨rfl, rfl⟩
  exact
    { aligned := h.aligned
      size := h.size
      base := h.base
      count := h.count
      enqueue := hnext.1
      producerCycle := hnext.2
      begun := by rw [List.length_append, List.length_singleton, h.begun]
      stamped := by
        intro v hv
        show (((s.written ++ [x])[v]?).getD Trb.zero).cycleBit = lap n v
        by_cases hvP : v = P
        · rw [hvP, hnew, Trb.cycleBit_stamp, h.producerCycle]
        · rw [← hold v (by omega)]
          exact h.stamped v (by omega)
      room := by omega
      single := Nat.le_refl _
      writing := by
        have hfill : Pending n (fun v => ((s.written ++ [x])[v]?).getD Trb.zero) s.ring.mem P
            (P + 1 + 0) _ := Pending.fill P 0 ws
          (by
            intro w hw h3
            have hmem := hws.mem_iff.mp hw
            rw [h3] at hmem
            simp at hmem)
          (by
            intro w h3 hnot
            have hmem : w ∈ [(0 : Fin 4), 1, 2] := by fin_cases w <;> simp_all
            exact absurd (hws.mem_iff.mpr hmem) hnot)
        rw [fillPositions, List.append_nil, hnew] at hfill
        rw [h.enqueue]
        exact hfill
      ring := h.ring.congr_item hold
      position := h.position
      cycle := h.cycle
      calling := h.calling
      handled := by
        have hle : dispatched s.call C ≤ s.written.length := by
          rw [h.begun, dispatched]
          split
          · rename_i hcall
            exact h.calling (by rw [hcall]; decide)
          · exact hCP
        rw [List.take_append_of_le_length hle]
        exact h.handled }

/-- The controller's next store keeps the invariant, and publishes the event if it is the one
with the cycle bit. -/
theorem Inv.store (h : s.Inv n P Q C) {st : Store} {rest : List Store}
    (hst : s.pending = st :: rest) :
    ∃ P', Inv n { s with ring := { s.ring with mem := st.apply s.ring.mem }, pending := rest }
      P' Q C := by
  have hwriting := h.writing
  rw [hst] at hwriting
  obtain ⟨P', hle, -, hring, hpend⟩ :=
    hwriting.store h.ring (by have := h.room; omega) (fun v _ hv => h.stamped v hv)
  exact ⟨P',
    { aligned := h.aligned
      size := h.size
      base := h.base
      count := h.count
      enqueue := h.enqueue
      producerCycle := h.producerCycle
      begun := h.begun
      stamped := h.stamped
      room := h.room
      single := by have := h.single; omega
      writing := hpend
      ring := hring
      position := h.position
      cycle := h.cycle
      calling := fun hcall => Nat.lt_of_lt_of_le (h.calling hcall) hle
      handled := h.handled }⟩

/-- The driver tests the cycle bit. -/
theorem Inv.test (hn2 : 2 ≤ n) (hn : n ≤ 65535) (h : s.Inv n P Q C) (hcall : s.call = .idle)
    (hfront : s.ring.hasFront = .ok true) : Inv n { s with call := .tested } P Q C := by
  rw [h.hasFront hn2 hn] at hfront
  have hlt : C < P := of_decide_eq_true (Except.ok.inj hfront)
  have hhandled := h.handled
  rw [hcall] at hhandled
  exact { h with calling := fun _ => hlt, handled := hhandled }

/-- The driver dispatches the next event: what it has read at the front is the event the
controller wrote there. -/
theorem Inv.dispatch (hn2 : 2 ≤ n) (hn : n ≤ 65535) (h : s.Inv n P Q C) {trb : Trb}
    (hcall : s.call = .tested) (hfront : s.ring.front = .ok trb) :
    Inv n { s with call := .dispatched, handled := s.handled ++ [trb] } P Q C := by
  have hlt : C < P := h.calling (by rw [hcall]; decide)
  have hQ := h.writing.le
  rw [h.front hn2 hn, h.ring.front hlt] at hfront
  obtain rfl : s.item C = trb := Except.ok.inj hfront
  have hhandled := h.handled
  rw [hcall] at hhandled
  have hget : s.written[C]? = some (s.item C) := by
    have hlen : C < s.written.length := by rw [h.begun]; omega
    rw [item, List.getElem?_eq_getElem hlen, Option.getD_some]
  refine { h with calling := fun _ => hlt, handled := ?_ }
  show s.handled ++ [s.item C] = s.written.take (C + 1)
  rw [List.take_add_one, hget, hhandled]
  rfl

/-- The driver pops the event it dispatched: its slot is free for the controller from then on.
-/
theorem Inv.pop (hn2 : 2 ≤ n) (hn : n ≤ 65535) (h : s.Inv n P Q C)
    (hcall : s.call = .dispatched) :
    Inv n { s with call := .idle, ring := s.ring.pop } P Q (C + 1) := by
  have hlt : C < P := h.calling (by rw [hcall]; decide)
  have hhandled := h.handled
  rw [hcall] at hhandled
  rw [h.pop_eq hn2 hn]
  exact
    { aligned := h.aligned
      size := h.size
      base := h.base
      count := h.count
      enqueue := h.enqueue
      producerCycle := h.producerCycle
      begun := h.begun
      stamped := h.stamped
      room := by have := h.room; omega
      single := h.single
      writing := h.writing
      ring := h.ring.consume (by omega) hlt
      position := erdpPointer_setPointer _ (dvd_trbAddr h.aligned _)
      cycle := rfl
      calling := fun hidle => absurd rfl hidle
      handled := hhandled }

/-- A step of a `ProcessEvent` call. -/
theorem Inv.drive (hn2 : 2 ≤ n) (hn : n ≤ 65535) (h : s.Inv n P Q C) {s' : EventSystem}
    (hstep : DriverStep s s') : ∃ C', s'.Inv n P Q C' := by
  cases hstep with
  | test hcall hfront => exact ⟨C, h.test hn2 hn hcall hfront⟩
  | dispatch hcall hfront => exact ⟨C, h.dispatch hn2 hn hcall hfront⟩
  | pop hcall => exact ⟨C + 1, h.pop hn2 hn hcall⟩

/-- **Step lemma of the simulation.** Whatever the controller or the driver does next, the
invariant holds again, with positions in the abstract queue that go with the new state. -/
theorem Inv.step (hn2 : 2 ≤ n) (hn : n ≤ 65535) (h : s.Inv n P Q C) {s' : EventSystem}
    (hstep : Step s s') : ∃ P' Q' C', s'.Inv n P' Q' C' := by
  cases hstep with
  | write t ws hws hidle hpos hroom =>
      exact ⟨P, Q + 1, C, h.write hn2 hn hws hidle hpos hroom⟩
  | store hst =>
      obtain ⟨P', hinv⟩ := h.store hst
      exact ⟨P', Q, C, hinv⟩
  | drive hdrive =>
      obtain ⟨C', hinv⟩ := h.drive hn2 hn hdrive
      exact ⟨P, Q, C', hinv⟩

/-- A freshly initialized event ring satisfies the invariant: nothing is published, pending or
handled. -/
theorem inv_start (hn2 : 2 ≤ n) {r : EventRing} (hr : r.Fresh n) : (start r).Inv n 0 0 0 where
  aligned := (show 16 ∣ 64 by decide).trans hr.aligned
  size := hr.size
  base := hr.base
  count := hr.count
  enqueue := (Nat.zero_mod n).symm
  producerCycle := (lap_of_lt (by omega)).symm
  begun := rfl
  stamped := fun v hv => absurd hv (Nat.not_lt_zero v)
  room := by omega
  single := Nat.zero_le _
  writing := Pending.idle 0
  ring := CycleRing.Inv.init fun i hi => by
    show (r.mem i).cycleBit = false
    rw [hr.clear i hi]
    rfl
  position := by
    rw [Nat.zero_mod, trbAddr_zero]
    exact hr.dequeue
  cycle := hr.cycle.trans (lap_of_lt (by omega)).symm
  calling := fun hidle => absurd rfl hidle
  handled := rfl

/-- Every reachable state of the system satisfies the invariant. -/
theorem inv_of_run (hn2 : 2 ≤ n) (hn : n ≤ 65535) {s₀ s : EventSystem}
    (h₀ : ∃ P Q C, s₀.Inv n P Q C) (hrun : ReflTransGen Step s₀ s) :
    ∃ P Q C, s.Inv n P Q C := by
  induction hrun with
  | refl => exact h₀
  | tail _ hstep ih =>
      obtain ⟨P, Q, C, h⟩ := ih
      exact h.step hn2 hn hstep

/-- The events written completely are the published ones: the store of the cycle bit comes last.
-/
theorem Inv.completed_eq (h : s.Inv n P Q C) : s.completed = s.written.take P := by
  have hlen := h.begun
  have hwriting := h.writing
  by_cases hidle : s.pending = []
  · rw [hidle] at hwriting
    obtain rfl : P = Q := hwriting.eq_of_nil
    rw [completed, if_pos hidle, List.take_of_length_le (Nat.le_of_eq hlen)]
  · have hlt := hwriting.lt_of_ne_nil hidle
    have hsingle := h.single
    have hP : s.written.length - 1 = P := by omega
    rw [completed, if_neg hidle, List.dropLast_eq_take, hP]

/-- The driver has dealt with a prefix of the completed events: those it has popped and the one
it may just have dispatched. -/
theorem Inv.handled_eq (h : s.Inv n P Q C) :
    s.handled = s.completed.take (dispatched s.call C) := by
  have hle : dispatched s.call C ≤ P := by
    unfold dispatched
    split
    · rename_i hcall
      exact h.calling (by rw [hcall]; decide)
    · exact h.ring.consumed_le
  rw [h.completed_eq, List.take_take, Nat.min_eq_left hle]
  exact h.handled

/-- Between two calls the driver is done with all completed events if and only if everything
published is popped. -/
theorem Inv.done_iff (h : s.Inv n P Q C) (hcall : s.call = .idle) :
    s.handled = s.completed ↔ ¬ C < P := by
  have hlen : s.completed.length = P := by
    rw [h.completed_eq, List.length_take, h.begun]
    exact Nat.min_eq_left h.writing.le
  have hhandled := h.handled_eq
  rw [hcall] at hhandled
  have hCP := h.ring.consumed_le
  constructor
  · intro heq hlt
    have hlength := congrArg List.length hhandled
    rw [heq, List.length_take, hlen] at hlength
    have hmin : min (dispatched .idle C) P = C := Nat.min_eq_left hCP
    omega
  · intro hle
    have hC : C = P := by omega
    rw [hhandled]
    exact List.take_of_length_le (by rw [hlen]; exact Nat.le_of_eq hC.symm)

/-- The event at the front is the next one behind those dealt with, in the order in which the
controller wrote them. -/
theorem Inv.next (h : s.Inv n P Q C) (hcall : s.call = .idle) (hlt : C < P) :
    s.handled ++ [s.item C] <+: s.completed := by
  have hhandled := h.handled_eq
  rw [hcall] at hhandled
  have hPQ := h.writing.le
  have hlen : C < s.written.length := by rw [h.begun]; omega
  have hcount : s.handled.length = C := by
    rw [hhandled, h.completed_eq, List.take_take, List.length_take]
    show min (min C P) s.written.length = C
    omega
  have hprefix : s.handled <+: s.completed := by
    rw [hhandled]
    exact List.take_prefix _ _
  refine prefix_snoc hprefix ?_
  rw [hcount, h.completed_eq, List.getElem?_take_of_lt hlt, item, List.getElem?_eq_getElem hlen,
    Option.getD_some]

/-- **One `ProcessEvent` call.**  Without a published event it changes nothing;
otherwise it hands the next event to its handler and pops it, whatever the
handler returns. -/
theorem Inv.processEvent (hn2 : 2 ≤ n) (hn : n ≤ 65535) (h : s.Inv n P Q C) {σ : Type}
    (handle : Trb → σ → Except Fault (Error × σ)) (σ₀ : σ) :
    EventRing.processEvent handle s.ring σ₀ =
      if C < P then (handle (s.item C) σ₀).map fun x => (x.1, s.ring.pop, x.2)
      else .ok (.kSuccess, s.ring, σ₀) := by
  rw [EventRing.processEvent, h.hasFront hn2 hn]
  by_cases hlt : C < P
  · rw [if_pos hlt, decide_eq_true hlt, h.front hn2 hn, h.ring.front hlt]
    change ((handle (s.item C) σ₀).bind fun x => .ok (x.1, s.ring.pop, x.2)) = _
    cases handle (s.item C) σ₀ <;> rfl
  · rw [if_neg hlt, decide_eq_false hlt]
    rfl

/-- Between two calls the ring shows the published events that are not popped, in order, which
is what the handlers are modelled on. -/
theorem Inv.shows (hn2 : 2 ≤ n) (hn : n ≤ 65535) (h : s.Inv n P Q C) (hcall : s.call = .idle) :
    s.ring.Shows ((s.written.take P).drop C) := by
  have hfront := h.hasFront hn2 hn
  have hlen : (s.written.take P).length = P := by
    rw [List.length_take, h.begun]
    exact Nat.min_eq_left h.writing.le
  generalize hleft : P - C = left
  induction left generalizing s C with
  | zero =>
      rw [List.drop_of_length_le (by omega)]
      rw [decide_eq_false (by omega)] at hfront
      exact hfront
  | succ left ih =>
      have hlt : C < P := by omega
      have hwritten : C < s.written.length := by
        rw [h.begun]
        exact Nat.lt_of_lt_of_le hlt h.writing.le
      have hC : C < (s.written.take P).length := by omega
      have hitem : (s.written.take P).get ⟨C, hC⟩ = s.item C := by
        rw [List.get_eq_getElem, List.getElem_take, item, List.getElem?_eq_getElem hwritten,
          Option.getD_some]
      rw [decide_eq_true hlt] at hfront
      have htrb := h.front hn2 hn
      rw [h.ring.front hlt] at htrb
      have hpopped := (((h.test hn2 hn hcall hfront).dispatch hn2 hn rfl htrb).pop hn2 hn rfl)
      rw [List.get_eq_getElem] at hitem
      rw [List.drop_eq_getElem_cons hC, hitem]
      exact ⟨hfront, htrb, ih hpopped rfl (hpopped.hasFront hn2 hn) hlen (by omega)⟩

/-- `Pop` always moves the dequeue pointer, since the segment has more than one entry. -/
theorem Inv.pop_ne (hn2 : 2 ≤ n) (hn : n ≤ 65535) (h : s.Inv n P Q C) : s.ring.pop ≠ s.ring := by
  intro heq
  have hread : s.ring.pop.readDequeuePointer = trbAddr s.ring.buf ((C + 1) % n) := by
    rw [h.pop_eq hn2 hn]
    exact erdpPointer_setPointer _ (dvd_trbAddr h.aligned _)
  rw [heq, h.position] at hread
  have hmod := trbAddr_injective _ n (Nat.mod_lt C (by omega)) (Nat.mod_lt (C + 1) (by omega))
    (by omega) hread
  have hC := slot_injective (by omega) (by omega) hmod
  omega

/-- Left alone, the driver gets through everything that is published, by induction on the number
of events that are left. -/
theorem Inv.drain (hn2 : 2 ≤ n) (hn : n ≤ 65535) (h : s.Inv n P Q C) :
    ∃ s', ReflTransGen DriverStep s s' ∧ s'.call = .idle ∧ s'.handled = s'.completed := by
  -- Each event takes three steps.
  generalize hleft : 3 * (P - C) - s.call.progress = left
  induction left generalizing s C with
  | zero =>
      cases hcall : s.call with
      | idle =>
          rw [hcall, CallPhase.progress] at hleft
          exact ⟨s, ReflTransGen.refl, hcall, (h.done_iff hcall).mpr (by omega)⟩
      | tested =>
          have hlt := h.calling (by rw [hcall]; decide)
          rw [hcall, CallPhase.progress] at hleft
          omega
      | dispatched =>
          have hlt := h.calling (by rw [hcall]; decide)
          rw [hcall, CallPhase.progress] at hleft
          omega
  | succ left ih =>
      cases hcall : s.call with
      | idle =>
          rw [hcall, CallPhase.progress] at hleft
          have hlt : C < P := by omega
          have hfront : s.ring.hasFront = .ok true := by
            rw [h.hasFront hn2 hn, decide_eq_true hlt]
          obtain ⟨s', hrun, hdone⟩ := ih (h.test hn2 hn hcall hfront)
            (by show 3 * (P - C) - 1 = left; omega)
          exact ⟨s', ReflTransGen.head (DriverStep.test hcall hfront) hrun, hdone⟩
      | tested =>
          rw [hcall, CallPhase.progress] at hleft
          have hfront := h.front hn2 hn
          obtain ⟨s', hrun, hdone⟩ := ih (h.dispatch hn2 hn hcall hfront)
            (by show 3 * (P - C) - 2 = left; omega)
          exact ⟨s', ReflTransGen.head (DriverStep.dispatch hcall hfront) hrun, hdone⟩
      | dispatched =>
          rw [hcall, CallPhase.progress] at hleft
          obtain ⟨s', hrun, hdone⟩ := ih (h.pop hn2 hn hcall)
            (by show 3 * (P - (C + 1)) - 0 = left; omega)
          exact ⟨s', ReflTransGen.head (DriverStep.pop hcall) hrun, hdone⟩

end Invariant

/-- **The ring shows what is left.**  In every interleaving with the controller,
between two calls, the ring shows the events written completely that the driver
has not dealt with. -/
theorem shows_of_run {n : Nat} (hn2 : 2 ≤ n) (hn : n ≤ 65535) {r : EventRing} (hr : r.Fresh n)
    {s : EventSystem} (hrun : ReflTransGen Step (start r) s) (hcall : s.call = .idle) :
    s.ring.Shows (s.completed.drop s.handled.length) := by
  obtain ⟨P, Q, C, h⟩ := inv_of_run hn2 hn ⟨0, 0, 0, inv_start hn2 hr⟩ hrun
  have hshows := h.shows hn2 hn hcall
  have hcount : s.handled.length = C := by
    have hhandled := h.handled
    rw [hcall] at hhandled
    rw [hhandled, List.length_take, h.begun]
    have hCP := h.ring.consumed_le
    have hPQ := h.writing.le
    show min C Q = C
    omega
  rw [hcount, h.completed_eq]
  exact hshows

/-- **The event ring is a FIFO queue.**  After a successful `Initialize(n)`, in
every interleaving with the controller:

* the driver has dispatched or rejected a prefix of the events written
  completely;
* the driver's test finds an event iff there is another such event;
* a `ProcessEvent` call leaves the ring alone iff there is none, and otherwise
  hands the next one to its handler and pops it, whatever the handler returns;
* by its own steps the driver gets through all of them. -/
theorem event_ring_fifo {n : Nat} (hn2 : 2 ≤ n) (hn : n ≤ 65535) {r₀ r : EventRing}
    {pool pool' : Usb.Pool} (hinit : r₀.initializeEventRing n pool = (.kSuccess, r, pool'))
    {s : EventSystem} (hrun : ReflTransGen Step (start r) s) :
    s.handled <+: s.completed ∧
      (s.call = .idle → (s.ring.hasFront = .ok true ↔ s.handled ≠ s.completed)) ∧
      (s.call = .idle → ∀ (σ : Type) (handle : Trb → σ → Except Fault (Error × σ))
        (σ₀ σ₁ : σ) (err : Error) (r' : EventRing),
        EventRing.processEvent handle s.ring σ₀ = .ok (err, r', σ₁) →
          (r' = s.ring ↔ s.handled = s.completed) ∧
            (s.handled ≠ s.completed → ∃ trb, s.handled ++ [trb] <+: s.completed ∧
              handle trb σ₀ = .ok (err, σ₁) ∧ r' = s.ring.pop)) ∧
      ∃ s', ReflTransGen DriverStep s s' ∧ s'.call = .idle ∧ s'.handled = s'.completed := by
  have hfresh := EventRing.initializeEventRing_success (by omega) hinit
  obtain ⟨P, Q, C, h⟩ := inv_of_run hn2 hn ⟨0, 0, 0, inv_start hn2 hfresh⟩ hrun
  refine ⟨?_, ?_, ?_, h.drain hn2 hn⟩
  · rw [h.handled_eq]
    exact List.take_prefix _ _
  · intro hcall
    rw [h.hasFront hn2 hn, Ne, h.done_iff hcall, not_not]
    simp
  · intro hcall σ handle σ₀ σ₁ err r' hprocess
    rw [h.processEvent hn2 hn] at hprocess
    have hdone := h.done_iff hcall
    by_cases hlt : C < P
    · rw [if_pos hlt] at hprocess
      have hmore : s.handled ≠ s.completed := fun heq => hdone.mp heq hlt
      cases hhandle : handle (s.item C) σ₀ with
      | error f =>
          rw [hhandle] at hprocess
          cases hprocess
      | ok x =>
          rw [hhandle] at hprocess
          cases hprocess
          refine ⟨⟨fun heq => absurd heq (h.pop_ne hn2 hn), fun heq => absurd heq hmore⟩, ?_⟩
          exact fun _ => ⟨s.item C, h.next hcall hlt, hhandle, rfl⟩
    · rw [if_neg hlt] at hprocess
      cases hprocess
      have hnone : s.handled = s.completed := hdone.mpr hlt
      exact ⟨⟨fun _ => hnone, fun _ => rfl⟩, fun hne => absurd hnone hne⟩

/-! ## One event after the other -/

/-- Between two events: what the controller has begun is handled. -/
def Settled (n : Nat) (s : EventSystem) : Prop :=
  s.pending = [] ∧ s.call = .idle ∧ s.handled = s.written ∧ ∃ Q, s.Inv n Q Q Q

/-- The controller performs the stores it has begun. -/
theorem stores_are_run (s : EventSystem) : ∃ mem,
    ReflTransGen Step s { s with ring := { s.ring with mem := mem }, pending := [] } := by
  obtain ⟨ring, call, enqueue, producerCycle, pending, written, handled⟩ := s
  induction pending generalizing ring with
  | nil => exact ⟨ring.mem, .refl⟩
  | cons st rest ih =>
      obtain ⟨mem, hrun⟩ := ih { ring with mem := st.apply ring.mem }
      exact ⟨mem, .head (.store rfl) hrun⟩

theorem run_of_drives {s s' : EventSystem} (h : ReflTransGen DriverStep s s') :
    ReflTransGen Step s s' :=
  ReflTransGen.mono (fun _ _ => Step.drive) _ _ h

/-- The driver leaves the controller's side alone: no store becomes pending, and no event is
written. -/
theorem drive_frame {s s' : EventSystem} (h : ReflTransGen DriverStep s s') :
    s'.pending = s.pending ∧ s'.written = s.written := by
  induction h with
  | refl => exact ⟨rfl, rfl⟩
  | tail _ hstep ih =>
      cases hstep with
      | test => exact ih
      | dispatch => exact ih
      | pop => exact ih

/-- **One event passes**: the controller writes it, with the cycle bit of its lap, and the
driver handles it, wherever on the ring it lies. -/
theorem Settled.pass {n : Nat} (hn2 : 2 ≤ n) (hn : n ≤ 65535) {s : EventSystem}
    (h : s.Settled n) (t : Trb) : ∃ s', ReflTransGen Step s s' ∧ s'.Settled n ∧
      s'.handled = s.handled ++ [t.stamp (lap n s.handled.length)] := by
  obtain ⟨hidle, hcall, hhandled, Q, hinv⟩ := h
  have hpos : trbIndex s.ring.buf s.ring.bufSize s.ring.readDequeuePointer = some (Q % n) := by
    rw [hinv.position, hinv.size]
    exact trbIndex_trbAddr _ (Nat.mod_lt Q (by omega)) (by omega)
  have hroom : (s.enqueue + s.segmentSize - Q % n) % s.segmentSize + 1 ≤ s.segmentSize - 1 := by
    rw [hinv.enqueue, hinv.segmentSize hn, Nat.add_sub_cancel_left, Nat.mod_self]
    omega
  have hwrite := Step.write t [0, 1, 2] (.refl _) hidle hpos hroom
  obtain ⟨mem, hstores⟩ := stores_are_run { s with
    pending := fillStores s.enqueue (t.stamp s.producerCycle) [0, 1, 2]
    written := s.written ++ [t.stamp s.producerCycle]
    enqueue := if s.enqueue + 1 = s.segmentSize then 0 else s.enqueue + 1
    producerCycle := if s.enqueue + 1 = s.segmentSize then !s.producerCycle
      else s.producerCycle }
  have hbegun := ReflTransGen.head hwrite hstores
  obtain ⟨P₁, Q₁, C₁, hinv₁⟩ := inv_of_run hn2 hn ⟨Q, Q, Q, hinv⟩ hbegun
  obtain ⟨s', hdrive, hcall', hdone⟩ := hinv₁.drain hn2 hn
  obtain ⟨hidle', hwritten'⟩ := drive_frame hdrive
  have hrun := hbegun.trans (run_of_drives hdrive)
  obtain ⟨P, Q', C, hinv'⟩ := inv_of_run hn2 hn ⟨Q, Q, Q, hinv⟩ hrun
  -- Nothing is pending and nothing unhandled: the three counts agree.
  obtain rfl : P = Q' := by
    have hwriting := hinv'.writing
    rw [hidle'] at hwriting
    exact hwriting.eq_of_nil
  obtain rfl : C = P := by
    have hle := hinv'.ring.consumed_le
    have hall := (hinv'.done_iff hcall').mp hdone
    omega
  have hcompleted : s'.handled = s'.written := by
    rw [hdone, completed, if_pos hidle']
  refine ⟨s', hrun, ⟨hidle', hcall', hcompleted, C, hinv'⟩, ?_⟩
  rw [hcompleted, hwritten', hhandled, hinv.begun, ← hinv.producerCycle]

/-- A ring of two events on a fresh pool. -/
def smallRing : EventRing :=
  ((⟨nullptr, 0, false, nullptr, ⟨nullptr, 0⟩, ⟨0, 0, 8⟩, fun _ => Trb.zero⟩ :
    EventRing).initializeEventRing 2 (Usb.Pool.init Usb.samplePool)).2.1

/-- Three events through a ring of two: the third lies in the first slot again, with the other
cycle bit, and the driver finds it there. -/
theorem event_ring_fifo_two : ∃ s, ReflTransGen Step (start smallRing) s ∧
    s.handled = [enableSlotCommandTRB.stamp true, dataStageTRB.stamp true,
      statusStageTRB.stamp false] ∧ s.ring.hasFront ≠ .ok true := by
  let r₀ : EventRing :=
    ⟨nullptr, 0, false, nullptr, ⟨nullptr, 0⟩, ⟨0, 0, 8⟩, fun _ => Trb.zero⟩
  have hok : (r₀.initializeEventRing 2 (Usb.Pool.init Usb.samplePool)).1 = .kSuccess := by decide
  have hinit : r₀.initializeEventRing 2 (Usb.Pool.init Usb.samplePool) =
      (.kSuccess, smallRing, (r₀.initializeEventRing 2 (Usb.Pool.init Usb.samplePool)).2.2) := by
    rw [← hok]
    rfl
  have hstart : (start smallRing).Settled 2 := ⟨rfl, rfl, rfl, 0,
    inv_start (by decide) (EventRing.initializeEventRing_success (by decide) hinit)⟩
  obtain ⟨s₁, hfirst, hsettled₁, hone⟩ :=
    hstart.pass (by decide) (by decide) enableSlotCommandTRB
  obtain ⟨s₂, hsecond, hsettled₂, htwo⟩ := hsettled₁.pass (by decide) (by decide) dataStageTRB
  obtain ⟨s₃, hthird, ⟨hidle, hcall, hall, -⟩, hthree⟩ :=
    hsettled₂.pass (by decide) (by decide) statusStageTRB
  have hrun := (hfirst.trans hsecond).trans hthird
  have hfifo := event_ring_fifo (by decide) (by decide) hinit hrun
  refine ⟨s₃, hrun, ?_, fun hfront => (hfifo.2.1 hcall).mp hfront ?_⟩
  · rw [hthree, htwo, hone]
    rfl
  · rw [completed, if_pos hidle]
    exact hall

end EventSystem

end Mikanos.Xhci
