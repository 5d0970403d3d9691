import Mikanos.Xhci.Ring
import Mathlib.Logic.Relation

/-!
# A command or transfer ring is a queue

The controller reads a ring on its own: it holds a slot address and a cycle
state, takes a slot only when the slot's cycle bit equals its cycle state, and
follows a link TRB under the same condition.  It may run between any two of
the 32-bit stores of a `Push`.

The ring keeps one slot for the link TRB, so on a ring of `n` slots a lap holds
`n - 1` pushed TRBs.  The proof counts *positions*, the link slot included:
position `v` is slot `v % n` of lap `v / n`, and `dataCount n v` of the
positions below `v` hold pushed TRBs.  In these terms link TRBs are items like
any other and the ring is a plain `CycleRing`; `RingSystem.Inv` is the
simulation between the ring and the list of pushed TRBs.

The bound of the specification is sharp in one place only.  A `Push` that
starts with at most `n - 3` TRBs unread may fill two positions, its own and the
link slot, and `dataCount_room` shows that the consumer has by then left the
previous lap's link slot.
-/

namespace Mikanos.Xhci

open CycleRing Relation

/-! ## The interleaved system -/

/-- The reader of a ring: where it stands and the cycle state it expects. -/
structure Consumer where
  dequeue : Addr
  cycleState : Bool

/-- One move of the reader, if the ring lets it: it either follows a link TRB
or takes the TRB at its position. -/
def Consumer.step (c : Consumer) (r : Ring) : Option (Consumer × Option (Addr × Trb)) :=
  match r.slotAt c.dequeue with
  | none => none
  | some i =>
      if (r.mem i).cycleBit ≠ c.cycleState then none
      else if (r.mem i).trbType = linkType then
        some (⟨(r.mem i).pointer60,
          if (r.mem i).toggleCycle then !c.cycleState else c.cycleState⟩, none)
      else some (⟨c.dequeue + 16, c.cycleState⟩, some (c.dequeue, r.mem i))

/-- The driver's ring, the stores of the running `Push`, the reader, and the
history: the pushes begun so far with the pointer each returns, and the TRBs
received with the slot each was found at. -/
structure RingSystem where
  ring : Ring
  pending : List Store
  consumer : Consumer
  pushed : List (Addr × Trb)
  received : List (Addr × Trb)

namespace RingSystem

/-- A freshly initialized ring and a reader at slot 0 with cycle state 1. -/
def start (r : Ring) : RingSystem := ⟨r, [], ⟨r.slotAddr 0, true⟩, [], []⟩

/-- A step of the reader. -/
inductive ConsumerStep : RingSystem → RingSystem → Prop
  /-- The reader follows a link TRB. -/
  | follow {s : RingSystem} {c : Consumer} (h : s.consumer.step s.ring = some (c, none)) :
      ConsumerStep s { s with consumer := c }
  /-- The reader takes a TRB. -/
  | take {s : RingSystem} {c : Consumer} {x : Addr × Trb}
      (h : s.consumer.step s.ring = some (c, some x)) :
      ConsumerStep s { s with consumer := c, received := s.received ++ [x] }

/-- One step of the interleaving. -/
inductive Step : RingSystem → RingSystem → Prop
  /-- A `Push` of a non-link TRB begins while at most `bufSize - 3` pushed TRBs
  are unread. -/
  | push {s : RingSystem} (t : Trb) (hkind : t.trbType ≠ linkType) (hidle : s.pending = [])
      (hroom : s.pushed.length + 3 ≤ s.received.length + s.ring.bufSize) :
      Step s { s with
        ring := s.ring.advance
        pending := s.ring.pushStores t
        pushed := s.pushed ++ [(s.ring.slotAddr s.ring.writeIndex, t)] }
  /-- The next store of the running `Push`. -/
  | store {s : RingSystem} {st : Store} {rest : List Store} (hst : s.pending = st :: rest) :
      Step s { s with ring := s.ring.applyStore st, pending := rest }
  /-- The reader moves. -/
  | read {s s' : RingSystem} (h : ConsumerStep s s') : Step s s'

/-- The pushes that have returned. -/
def completed (s : RingSystem) : List (Addr × Trb) :=
  if s.pending = [] then s.pushed else s.pushed.dropLast

end RingSystem

/-- A TRB together with its slot, up to the cycle bit. -/
def view (x : Addr × Trb) : Addr × Trb := (x.1, x.2.stamp false)

/-- **`Push` is a run of the system**: from an idle state its stores, performed
one after the other, lead to the ring `Ring.push` returns. -/
theorem push_is_run {s : RingSystem} {t : Trb} {p : Addr} {r : Ring}
    (hkind : t.trbType ≠ linkType) (hidle : s.pending = [])
    (hroom : s.pushed.length + 3 ≤ s.received.length + s.ring.bufSize)
    (h : s.ring.push t = .ok (p, r)) :
    ReflTransGen RingSystem.Step s
      { s with ring := r, pending := [], pushed := s.pushed ++ [(p, t)] } := by
  have hstores : ∀ (stores : List Store) (u : RingSystem), u.pending = stores →
      ReflTransGen RingSystem.Step u
        { u with ring := u.ring.applyStores stores, pending := [] } := by
    intro stores
    induction stores with
    | nil =>
        rintro ⟨ring, pending, consumer, pushed, received⟩ hu
        obtain rfl : pending = [] := hu
        exact ReflTransGen.refl
    | cons st rest ih =>
        intro u hu
        exact ReflTransGen.head (RingSystem.Step.store hu)
          (ih { u with ring := u.ring.applyStore st, pending := rest } rfl)
  unfold Ring.push at h
  split at h
  · cases h
  · cases h
    exact ReflTransGen.head (RingSystem.Step.push t hkind hidle hroom) (hstores _ _ rfl)

/-! ## Counting pushed TRBs by position -/

/-- How many of the positions below `v` hold pushed TRBs. -/
def dataCount (n v : Nat) : Nat := v / n * (n - 1) + v % n

/-- A position holds a pushed TRB unless it is the link slot. -/
theorem dataCount_succ {n : Nat} (hn : 2 ≤ n) (v : Nat) :
    dataCount n (v + 1) = if v % n = n - 1 then dataCount n v else dataCount n v + 1 := by
  rcases slot_succ (by omega : 0 < n) v with ⟨hlt, hmod, hdiv⟩ | ⟨heq, hmod, hdiv⟩
  · rw [if_neg (by omega), dataCount, hmod, hdiv, dataCount]
    omega
  · rw [if_pos (by omega), dataCount, hmod, hdiv, dataCount, Nat.succ_mul]
    omega

/-- Later positions have at least as many pushed TRBs below them. -/
theorem dataCount_mono {n : Nat} (hn : 2 ≤ n) {u v : Nat} (h : u ≤ v) :
    dataCount n u ≤ dataCount n v := by
  induction v, h using Nat.le_induction with
  | base => exact Nat.le_refl _
  | succ v _ ih =>
      rw [dataCount_succ hn v]
      split <;> omega

/-- A position holding a pushed TRB is counted by every later one. -/
theorem dataCount_lt {n : Nat} (hn : 2 ≤ n) {u v : Nat} (hu : u % n ≠ n - 1) (h : u < v) :
    dataCount n u < dataCount n v := by
  have hsucc := dataCount_succ hn u
  rw [if_neg hu] at hsucc
  have hmono := dataCount_mono hn (show u + 1 ≤ v from h)
  omega

/-- Of `n - 1` positions in a row at most one is the link slot, so they hold at least `n - 2`
items. -/
theorem dataCount_add_lap {n : Nat} (hn : 2 ≤ n) (v : Nat) :
    dataCount n v + (n - 2) ≤ dataCount n (v + (n - 1)) := by
  have hn0 : 0 < n := by omega
  have hlt := Nat.mod_lt v hn0
  have hv := Nat.div_add_mod v n
  by_cases hzero : v % n = 0
  · have hpos : v + (n - 1) = n * (v / n) + (n - 1) := by omega
    have hmod : (v + (n - 1)) % n = n - 1 := by
      rw [hpos, Nat.mul_add_mod, Nat.mod_eq_of_lt (by omega)]
    have hdiv : (v + (n - 1)) / n = v / n := by
      conv_lhs => rw [hpos]
      rw [Nat.mul_add_div hn0, Nat.div_eq_of_lt (show n - 1 < n by omega), Nat.add_zero]
    rw [dataCount, dataCount, hmod, hdiv]
    omega
  · have hpos : v + (n - 1) = n * (v / n + 1) + (v % n - 1) := by
      rw [Nat.mul_succ]
      omega
    have hmod : (v + (n - 1)) % n = v % n - 1 := by
      rw [hpos, Nat.mul_add_mod, Nat.mod_eq_of_lt (by omega)]
    have hdiv : (v + (n - 1)) / n = v / n + 1 := by
      conv_lhs => rw [hpos]
      rw [Nat.mul_add_div hn0, Nat.div_eq_of_lt (show v % n - 1 < n by omega), Nat.add_zero]
    rw [dataCount, dataCount, hmod, hdiv, Nat.succ_mul]
    omega

/-- **Room for a push.**  With at most `n - 3` pushed TRBs unread, the reader is
less than a lap behind even after two more positions are filled. -/
theorem dataCount_room {n P C : Nat} (hn : 3 ≤ n)
    (h : dataCount n P + 3 ≤ dataCount n C + n) : P + 2 ≤ C + n := by
  by_contra hlt
  have hmono := dataCount_mono (n := n) (by omega) (by omega : C + (n - 1) ≤ P)
  have hlap := dataCount_add_lap (n := n) (by omega) C
  omega

/-- The slot of the `k`-th pushed TRB. -/
theorem dataCount_slot {n v : Nat} (hn : 2 ≤ n) (hv : v % n ≠ n - 1) :
    dataCount n v % (n - 1) = v % n := by
  have hlt := Nat.mod_lt v (by omega : 0 < n)
  rw [dataCount, Nat.mul_comm, Nat.mul_add_mod, Nat.mod_eq_of_lt (by omega)]

/-! ## The simulation -/

/-- What is published at position `v`: the link TRB on the last slot of each
lap, the pushed TRBs in order elsewhere, each with the lap's cycle bit. -/
def ringItem (link : Trb) (n : Nat) (pushed : List (Addr × Trb)) (v : Nat) : Trb :=
  (if v % n = n - 1 then link
    else ((pushed[dataCount n v]?).map Prod.snd).getD Trb.zero).stamp (lap n v)

@[simp] theorem cycleBit_ringItem (link : Trb) (n : Nat) (pushed : List (Addr × Trb)) (v : Nat) :
    (ringItem link n pushed v).cycleBit = lap n v :=
  Trb.cycleBit_stamp _ _

theorem ringItem_link {link : Trb} {n v : Nat} {pushed : List (Addr × Trb)} (h : v % n = n - 1) :
    ringItem link n pushed v = link.stamp (lap n v) := by
  rw [ringItem, if_pos h]

theorem ringItem_data {link : Trb} {n v : Nat} {pushed : List (Addr × Trb)} {x : Addr × Trb}
    (h : v % n ≠ n - 1) (hx : pushed[dataCount n v]? = some x) :
    ringItem link n pushed v = x.2.stamp (lap n v) := by
  rw [ringItem, if_neg h, hx]
  rfl

/-- Pushing one more TRB leaves the earlier positions as they were. -/
theorem ringItem_append {link : Trb} {n v : Nat} {pushed : List (Addr × Trb)} {x : Addr × Trb}
    (h : v % n ≠ n - 1 → dataCount n v < pushed.length) :
    ringItem link n (pushed ++ [x]) v = ringItem link n pushed v := by
  by_cases hv : v % n = n - 1
  · rw [ringItem_link hv, ringItem_link hv]
  · rw [ringItem, if_neg hv, ringItem, if_neg hv, List.getElem?_append_left (h hv)]

namespace RingSystem

/-- The items of a system. -/
def item (n : Nat) (s : RingSystem) : Nat → Trb := ringItem s.ring.link n s.pushed

/-- **The simulation invariant.**  `P` positions are published, those below `Q`
announced by a `Push`, and `C` read. -/
structure Inv (n : Nat) (s : RingSystem) (P Q C : Nat) : Prop where
  size : s.ring.bufSize = n
  base : 16 ∣ s.ring.buf.toNat
  index : s.ring.writeIndex = Q % n
  cycle : s.ring.cycleBit = lap n Q
  unlinked : Q % n ≠ n - 1
  announced : s.pushed.length = dataCount n Q
  room : Q ≤ C + n
  single : dataCount n Q ≤ dataCount n P + 1
  writing : Pending n (s.item n) s.ring.mem P Q s.pending
  ring : CycleRing.Inv n Trb.cycleBit s.ring.mem (s.item n) P C
  position : s.consumer = ⟨s.ring.slotAddr (C % n), lap n C⟩
  taken : s.received.length = dataCount n C
  faithful : s.received.map view <+: s.pushed.map view
  pointers : ∀ (k : Nat) (x : Addr × Trb), s.pushed[k]? = some x →
    x.1 = s.ring.slotAddr (k % (n - 1)) ∧ x.2.trbType ≠ linkType

section Invariant

variable {n : Nat} {s : RingSystem} {P Q C : Nat}

/-- **What the reader sees.**  It moves exactly when something unread is
published; on the link slot it goes back to slot 0 and flips its cycle state,
elsewhere it takes the item at its position. -/
theorem Inv.consumer_step (hn : 3 ≤ n) (hfit : 16 * n < 2 ^ 64) (h : s.Inv n P Q C) :
    s.consumer.step s.ring =
      if C < P then
        some (⟨s.ring.slotAddr ((C + 1) % n), lap n (C + 1)⟩,
          if C % n = n - 1 then none else some (s.ring.slotAddr (C % n), s.item n C))
      else none := by
  have hn0 : 0 < n := by omega
  have hslot : s.ring.slotAt (s.ring.slotAddr (C % n)) = some (C % n) :=
    trbIndex_trbAddr _ (by rw [h.size]; exact Nat.mod_lt C hn0) (by rw [h.size]; exact hfit)
  have htest := h.ring.test_iff hn0
  rw [h.position, Consumer.step, hslot]
  dsimp only
  by_cases hlt : C < P
  · have hfront : s.ring.mem (C % n) = s.item n C := h.ring.front hlt
    rw [if_neg (not_not.mpr (htest.mpr hlt)), if_pos hlt, hfront]
    by_cases hlink : C % n = n - 1
    · have hitem : s.item n C = s.ring.link.stamp (lap n C) := ringItem_link hlink
      have hmod : (C + 1) % n = 0 := by
        rcases slot_succ hn0 C with ⟨hlt', -, -⟩ | ⟨-, hmod, -⟩
        · omega
        · exact hmod
      rw [hitem, Trb.trbType_stamp, Ring.trbType_link, if_pos rfl, Trb.pointer60_stamp,
        Ring.pointer60_link _ h.base, Trb.toggleCycle_stamp, Ring.toggleCycle_link, if_pos rfl,
        if_pos hlink, hmod, Ring.slotAddr, trbAddr_zero, lap_succ_of_last hn0 (by omega)]
    · have hlast : C % n + 1 < n := by have := Nat.mod_lt C hn0; omega
      have hcount : dataCount n C < s.pushed.length := by
        rw [h.announced]
        exact dataCount_lt (by omega) hlink (Nat.lt_of_lt_of_le hlt h.writing.le)
      obtain ⟨x, hx⟩ : ∃ x, s.pushed[dataCount n C]? = some x :=
        ⟨_, List.getElem?_eq_getElem hcount⟩
      have hitem : s.item n C = x.2.stamp (lap n C) := ringItem_data hlink hx
      have hmod : (C + 1) % n = C % n + 1 := by
        rcases slot_succ hn0 C with ⟨-, hmod, -⟩ | ⟨heq, -, -⟩
        · exact hmod
        · omega
      have hkind : (s.item n C).trbType ≠ linkType := by
        rw [hitem, Trb.trbType_stamp]
        exact (h.pointers _ x hx).2
      rw [if_neg hkind, if_neg hlink, hmod, Ring.slotAddr, Ring.slotAddr, trbAddr_succ,
        lap_succ_of_lt hlast]
  · rw [if_pos (fun heq => hlt (htest.mp heq)), if_neg hlt]

/-- The reader follows the Link TRB to slot 0 and toggles its cycle state, which is what the
next lap asks for. -/
theorem Inv.follow (hn : 3 ≤ n) (h : s.Inv n P Q C) (hlt : C < P) (hlink : C % n = n - 1) :
    Inv n { s with consumer := ⟨s.ring.slotAddr ((C + 1) % n), lap n (C + 1)⟩ } P Q (C + 1) where
  size := h.size
  base := h.base
  index := h.index
  cycle := h.cycle
  unlinked := h.unlinked
  announced := h.announced
  room := by have := h.room; omega
  single := h.single
  writing := h.writing
  ring := h.ring.consume (by omega) hlt
  position := rfl
  taken := by
    rw [dataCount_succ (by omega), if_pos hlink]
    exact h.taken
  faithful := h.faithful
  pointers := h.pointers

/-- The reader takes the item at its position, which is the next pushed TRB,
at the address its `Push` returned. -/
theorem Inv.take (hn : 3 ≤ n) (h : s.Inv n P Q C) (hlt : C < P) (hdata : C % n ≠ n - 1) :
    Inv n { s with
      consumer := ⟨s.ring.slotAddr ((C + 1) % n), lap n (C + 1)⟩
      received := s.received ++ [(s.ring.slotAddr (C % n), s.item n C)] } P Q (C + 1) where
  size := h.size
  base := h.base
  index := h.index
  cycle := h.cycle
  unlinked := h.unlinked
  announced := h.announced
  room := by have := h.room; omega
  single := h.single
  writing := h.writing
  ring := h.ring.consume (by omega) hlt
  position := rfl
  taken := by
    rw [dataCount_succ (by omega), if_neg hdata, List.length_append, List.length_singleton,
      h.taken]
  faithful := by
    have hcount : dataCount n C < s.pushed.length := by
      rw [h.announced]
      exact dataCount_lt (by omega) hdata (Nat.lt_of_lt_of_le hlt h.writing.le)
    obtain ⟨x, hx⟩ : ∃ x, s.pushed[dataCount n C]? = some x :=
      ⟨_, List.getElem?_eq_getElem hcount⟩
    have hview : view (s.ring.slotAddr (C % n), s.item n C) = view x := by
      have hitem : s.item n C = x.2.stamp (lap n C) := ringItem_data hdata hx
      have haddr := (h.pointers _ x hx).1
      rw [dataCount_slot (by omega) hdata] at haddr
      rw [view, view, hitem, Trb.stamp_stamp, haddr]
    rw [List.map_append]
    refine prefix_snoc h.faithful ?_
    rw [List.length_map, h.taken, List.getElem?_map, hx]
    exact congrArg some hview.symm
  pointers := h.pointers

/-- `CopyToLast` fills the slot at `write_index_` with the stamped TRB. -/
theorem copyToLast_eq (r : Ring) (t : Trb) :
    r.copyToLast t = fillStores r.writeIndex (t.stamp r.cycleBit) [0, 1, 2] := by
  have hword : ∀ w : Fin 4, w ≠ 3 → (t.stamp r.cycleBit).data w = t.data w :=
    fun w h => Trb.setWord_of_ne t _ h
  have hlast : (t.stamp r.cycleBit).data 3 = Trb.stampWord (t.data 3) r.cycleBit :=
    Trb.setWord_same t 3 _
  simp only [Ring.copyToLast, fillStores, List.map_cons, List.map_nil, List.cons_append,
    List.nil_append, hlast, hword 0 (by decide), hword 1 (by decide), hword 2 (by decide)]

/-- The positions that `Push` returns, with one more: each is the slot of its item, and no item
is a link. -/
theorem Inv.pointers_append (hn : 2 ≤ n) (h : s.Inv n P P C) {t : Trb}
    (hkind : t.trbType ≠ linkType) (k : Nat) (y : Addr × Trb)
    (hy : (s.pushed ++ [(s.ring.slotAddr s.ring.writeIndex, t)])[k]? = some y) :
    y.1 = s.ring.slotAddr (k % (n - 1)) ∧ y.2.trbType ≠ linkType := by
  rcases Nat.lt_or_ge k s.pushed.length with hk | hk
  · rw [List.getElem?_append_left hk] at hy
    exact h.pointers k y hy
  · rw [List.getElem?_append_right hk] at hy
    have hk0 : k - s.pushed.length = 0 := by
      by_contra hne
      obtain ⟨j, hj⟩ := Nat.exists_eq_succ_of_ne_zero hne
      rw [hj] at hy
      cases hy
    rw [hk0] at hy
    obtain rfl : (s.ring.slotAddr s.ring.writeIndex, t) = y := Option.some.inj hy
    have hkP : k = dataCount n P := by
      have := h.announced
      omega
    rw [hkP, dataCount_slot (by omega) h.unlinked, ← h.index]
    exact ⟨rfl, hkind⟩

/-- The link TRB stays the same. -/
theorem link_advance (r : Ring) : r.advance.link = r.link := by
  show ((linkTRB r.advance.buf).setBits 3 1 (1 : BitVec 1)) = _
  rw [Ring.advance_buf]
  rfl

/-- A `Push` that takes `k` slots begins: its stores become pending, the cycle bit of each slot
last, and the reader sees none of them yet. -/
theorem Inv.push_begin (hn : 2 ≤ n) (h : s.Inv n P P C) {t : Trb}
    (hkind : t.trbType ≠ linkType) (hspace : P + 2 ≤ C + n) {k : Nat} (hk : k ≤ 2)
    (hindex : s.ring.advance.writeIndex = (P + k) % n)
    (hcycle : s.ring.advance.cycleBit = lap n (P + k)) (hunlinked : (P + k) % n ≠ n - 1)
    (hcount : dataCount n (P + k) = dataCount n P + 1)
    (hstores : s.ring.pushStores t = fillPositions n (ringItem s.ring.link n
      (s.pushed ++ [(s.ring.slotAddr s.ring.writeIndex, t)])) P k) :
    Inv n { s with
      ring := s.ring.advance
      pending := s.ring.pushStores t
      pushed := s.pushed ++ [(s.ring.slotAddr s.ring.writeIndex, t)] } P (P + k) C := by
  have hold : ∀ v, v < P → s.item n v = ringItem s.ring.link n
      (s.pushed ++ [(s.ring.slotAddr s.ring.writeIndex, t)]) v := by
    intro v hv
    refine (ringItem_append fun hdata => ?_).symm
    rw [h.announced]
    exact dataCount_lt hn hdata hv
  have haddr : ∀ i, s.ring.advance.slotAddr i = s.ring.slotAddr i := by
    intro i
    rw [Ring.slotAddr, Ring.slotAddr, Ring.advance_buf]
  constructor
  case size => rw [Ring.advance_bufSize]; exact h.size
  case base => rw [Ring.advance_buf]; exact h.base
  case index => exact hindex
  case cycle => exact hcycle
  case unlinked => exact hunlinked
  case announced => rw [List.length_append, List.length_singleton, h.announced, hcount]
  case room => omega
  case single => omega
  case writing =>
    show Pending n (ringItem s.ring.advance.link n _) s.ring.advance.mem P (P + k)
      (s.ring.pushStores t)
    rw [link_advance, hstores]
    exact pending_start n _ _ P k
  case ring =>
    show CycleRing.Inv n Trb.cycleBit s.ring.advance.mem (ringItem s.ring.advance.link n _) P C
    rw [link_advance, Ring.advance_mem]
    exact h.ring.congr_item hold
  case position =>
    show s.consumer = ⟨s.ring.advance.slotAddr (C % n), lap n C⟩
    rw [haddr]
    exact h.position
  case taken => exact h.taken
  case faithful =>
    rw [List.map_append]
    exact h.faithful.trans (List.prefix_append _ _)
  case pointers =>
    intro k y hy
    show y.1 = s.ring.advance.slotAddr (k % (n - 1)) ∧ y.2.trbType ≠ linkType
    rw [haddr]
    exact h.pointers_append hn hkind k y hy

/-- **A `Push` begins.**  It announces its own position and, when that is the
last before the link slot, the link slot too. -/
theorem Inv.push (hn : 3 ≤ n) (h : s.Inv n P Q C) {t : Trb} (hkind : t.trbType ≠ linkType)
    (hidle : s.pending = [])
    (hroom : s.pushed.length + 3 ≤ s.received.length + s.ring.bufSize) :
    ∃ Q', Inv n { s with
      ring := s.ring.advance
      pending := s.ring.pushStores t
      pushed := s.pushed ++ [(s.ring.slotAddr s.ring.writeIndex, t)] } P Q' C := by
  obtain rfl : P = Q := (hidle ▸ h.writing).eq_of_nil
  have hn0 : 0 < n := by omega
  have hlt := Nat.mod_lt P hn0
  have hunl := h.unlinked
  rw [h.announced, h.taken, h.size] at hroom
  have hspace : P + 2 ≤ C + n := dataCount_room hn hroom
  let x : Addr × Trb := (s.ring.slotAddr s.ring.writeIndex, t)
  let link := s.ring.link
  have hnew : ringItem link n (s.pushed ++ [x]) P = t.stamp (lap n P) := by
    refine ringItem_data (x := x) h.unlinked ?_
    rw [← h.announced, List.getElem?_append_right (Nat.le_refl _), Nat.sub_self]
    rfl
  have hcopy : s.ring.copyToLast t = fillPositions n (ringItem link n (s.pushed ++ [x])) P 1 := by
    rw [copyToLast_eq, h.index, h.cycle, fillPositions, hnew, fillPositions, List.append_nil]
  have hsucc := dataCount_succ (n := n) (by omega) P
  rw [if_neg hunl] at hsucc
  rcases slot_succ hn0 P with ⟨hlt', hmod, -⟩ | ⟨heq, -, -⟩
  · have hlap : lap n (P + 1) = lap n P := lap_succ_of_lt hlt'
    by_cases hlast : P % n + 1 = n - 1
    · -- The slot before the link slot: the link TRB is written as well.
      have hlinkSlot : (P + 1) % n = n - 1 := by omega
      have hcond : s.ring.writeIndex + 1 = s.ring.bufSize - 1 := by rw [h.index, h.size, hlast]
      have hmod2 : (P + 2) % n = 0 := by
        rcases slot_succ hn0 (P + 1) with ⟨hlt2, -, -⟩ | ⟨-, hmod2, -⟩
        · omega
        · exact hmod2
      have hlap2 : lap n (P + 2) = !lap n P := by
        rw [lap_succ_of_last hn0 (v := P + 1) (by omega), hlap]
      have hcount2 : dataCount n (P + 2) = dataCount n P + 1 := by
        rw [dataCount_succ (by omega) (P + 1), if_pos hlinkSlot, hsucc]
      refine ⟨P + 2, h.push_begin (by omega) hkind hspace (Nat.le_refl 2) ?_ ?_ (by omega) hcount2
        ?_⟩
      · rw [Ring.advance, if_pos hcond, hmod2]
      · rw [Ring.advance, if_pos hcond, hlap2, h.cycle]
      · have hlinkItem : ringItem link n (s.pushed ++ [x]) (P + 1) = link.stamp (lap n P) := by
          rw [ringItem_link hlinkSlot, hlap]
        have hlinkStores : ({ s.ring with writeIndex := s.ring.writeIndex + 1 } : Ring).copyToLast
              link = fillPositions n (ringItem link n (s.pushed ++ [x])) (P + 1) 1 := by
          rw [copyToLast_eq, fillPositions, fillPositions, hlinkItem, hlinkSlot, List.append_nil]
          dsimp only
          rw [hcond, h.size, h.cycle]
        have hboth : fillPositions n (ringItem link n (s.pushed ++ [x])) P 2 =
            fillPositions n (ringItem link n (s.pushed ++ [x])) P 1 ++
              fillPositions n (ringItem link n (s.pushed ++ [x])) (P + 1) 1 := by
          simp only [fillPositions, List.append_nil]
        rw [hboth, ← hcopy, ← hlinkStores]
        show s.ring.copyToLast t ++
          (if s.ring.writeIndex + 1 = s.ring.bufSize - 1 then _ else _) = _
        rw [if_pos hcond]
        rfl
    · have hcond : ¬ s.ring.writeIndex + 1 = s.ring.bufSize - 1 := by
        rw [h.index, h.size]
        exact hlast
      refine ⟨P + 1, h.push_begin (by omega) hkind hspace (by decide) ?_ ?_ (by omega) hsucc ?_⟩
      · rw [Ring.advance, if_neg hcond, hmod, h.index]
      · rw [Ring.advance, if_neg hcond, hlap, h.cycle]
      · rw [Ring.pushStores, hcopy]
        dsimp only
        rw [if_neg hcond, List.append_nil]
  · omega

/-- The next store of a running `Push` keeps the invariant, and publishes a slot if it is the
one with the cycle bit. -/
theorem Inv.store (hn : 2 ≤ n) (h : s.Inv n P Q C) {st : Store} {rest : List Store}
    (hst : s.pending = st :: rest) :
    ∃ P', Inv n { s with ring := s.ring.applyStore st, pending := rest } P' Q C := by
  obtain ⟨P', hP', -, hring, hpend⟩ :=
    (hst ▸ h.writing).store h.ring h.room (fun v _ _ => cycleBit_ringItem _ _ _ v)
  exact ⟨P',
    { size := h.size
      base := h.base
      index := h.index
      cycle := h.cycle
      unlinked := h.unlinked
      announced := h.announced
      room := h.room
      single := by
        have := dataCount_mono hn hP'
        have := h.single
        omega
      writing := hpend
      ring := hring
      position := h.position
      taken := h.taken
      faithful := h.faithful
      pointers := h.pointers }⟩

/-- A step of the reader, over an item or over the link, keeps the invariant with its position
moved on. -/
theorem Inv.read (hn : 3 ≤ n) (hfit : 16 * n < 2 ^ 64) (h : s.Inv n P Q C) {s' : RingSystem}
    (hread : ConsumerStep s s') : ∃ C', s'.Inv n P Q C' := by
  cases hread with
  | follow hc =>
      rw [h.consumer_step hn hfit] at hc
      split at hc
      · rename_i hlt
        by_cases hlink : C % n = n - 1
        · rw [if_pos hlink] at hc
          cases hc
          exact ⟨C + 1, h.follow hn hlt hlink⟩
        · rw [if_neg hlink] at hc
          cases hc
      · cases hc
  | take hc =>
      rw [h.consumer_step hn hfit] at hc
      split at hc
      · rename_i hlt
        by_cases hlink : C % n = n - 1
        · rw [if_pos hlink] at hc
          cases hc
        · rw [if_neg hlink] at hc
          cases hc
          exact ⟨C + 1, h.take hn hlt hlink⟩
      · cases hc

/-- **Step lemma of the simulation.** A store of the driver, a new `Push` or a step of the
reader keeps the invariant, with positions that go with the new state. -/
theorem Inv.step (hn : 3 ≤ n) (hfit : 16 * n < 2 ^ 64) (h : s.Inv n P Q C) {s' : RingSystem}
    (hstep : Step s s') : ∃ P' Q' C', s'.Inv n P' Q' C' := by
  cases hstep with
  | push t hkind hidle hroom =>
      obtain ⟨Q', hinv⟩ := h.push hn hkind hidle hroom
      exact ⟨P, Q', C, hinv⟩
  | store hst =>
      obtain ⟨P', hinv⟩ := h.store (by omega) hst
      exact ⟨P', Q, C, hinv⟩
  | read hread =>
      obtain ⟨C', hinv⟩ := h.read hn hfit hread
      exact ⟨P, Q, C', hinv⟩

/-- A freshly initialized ring satisfies the invariant: all cycle bits are clear, nothing is
pushed and the reader is at slot 0. -/
theorem inv_start (hn : 3 ≤ n) {r : Ring} (halign : 64 ∣ r.buf.toNat) (hsize : r.bufSize = n)
    (hcycle : r.cycleBit = true) (hindex : r.writeIndex = 0)
    (hmem : ∀ i, i < n → r.mem i = Trb.zero) : (start r).Inv n 0 0 0 where
  size := hsize
  base := (show 16 ∣ 64 by decide).trans halign
  index := hindex.trans (Nat.zero_mod n).symm
  cycle := hcycle.trans (lap_of_lt (by omega)).symm
  unlinked := by rw [Nat.zero_mod]; omega
  announced := by simp [start, dataCount]
  room := Nat.zero_le _
  single := Nat.le_succ _
  writing := Pending.idle 0
  ring := CycleRing.Inv.init fun i hi => by
    show (r.mem i).cycleBit = false
    rw [hmem i hi]
    rfl
  position := by
    rw [Nat.zero_mod, lap_of_lt (by omega)]
    rfl
  taken := by simp [start, dataCount]
  faithful := List.prefix_rfl
  pointers := fun k x hx => by simp [start] at hx

/-- Every reachable state of the system satisfies the invariant. -/
theorem inv_of_run (hn : 3 ≤ n) (hfit : 16 * n < 2 ^ 64) {s₀ s : RingSystem}
    (h₀ : ∃ P Q C, s₀.Inv n P Q C) (hrun : ReflTransGen Step s₀ s) :
    ∃ P Q C, s.Inv n P Q C := by
  induction hrun with
  | refl => exact h₀
  | tail _ hstep ih =>
      obtain ⟨P, Q, C, h⟩ := ih
      exact h.step hn hfit hstep

/-- A reader that cannot move has received every completed push: the slot it stands at is the
next to be pushed. -/
theorem Inv.blocked (hn : 3 ≤ n) (hfit : 16 * n < 2 ^ 64) (h : s.Inv n P Q C)
    (hblock : s.consumer.step s.ring = none) :
    s.completed.map view <+: s.received.map view := by
  rw [h.consumer_step hn hfit] at hblock
  split at hblock
  · cases hblock
  · rename_i hle
    obtain rfl : C = P := by have := h.ring.consumed_le; omega
    have hlength : s.completed.length ≤ s.received.length := by
      rw [h.taken]
      by_cases hidle : s.pending = []
      · have hwriting := h.writing
        rw [hidle] at hwriting
        rw [completed, if_pos hidle, h.announced, hwriting.eq_of_nil]
      · rw [completed, if_neg hidle, List.length_dropLast, h.announced]
        have := h.single
        omega
    have hcompleted : s.completed <+: s.pushed := by
      unfold completed
      split
      · exact List.prefix_rfl
      · exact List.dropLast_prefix _
    refine List.prefix_of_prefix_length_le (hcompleted.map view) h.faithful ?_
    rw [List.length_map, List.length_map]
    exact hlength

/-- Left alone, the reader moves on until it has nothing left to read, by induction on the slots
that are published. -/
theorem Inv.drain (hn : 3 ≤ n) (hfit : 16 * n < 2 ^ 64) (h : s.Inv n P Q C) :
    ∃ s', ReflTransGen ConsumerStep s s' ∧ s'.consumer.step s'.ring = none := by
  generalize hleft : P - C = left
  induction left generalizing s C with
  | zero =>
      refine ⟨s, ReflTransGen.refl, ?_⟩
      rw [h.consumer_step hn hfit, if_neg (by omega)]
  | succ left ih =>
      have hlt : C < P := by omega
      have hmove := h.consumer_step hn hfit
      rw [if_pos hlt] at hmove
      by_cases hlink : C % n = n - 1
      · rw [if_pos hlink] at hmove
        obtain ⟨s', hrun, hstop⟩ := ih (h.follow hn hlt hlink) (by omega)
        exact ⟨s', ReflTransGen.head (ConsumerStep.follow hmove) hrun, hstop⟩
      · rw [if_neg hlink] at hmove
        obtain ⟨s', hrun, hstop⟩ := ih (h.take hn hlt hlink) (by omega)
        exact ⟨s', ReflTransGen.head (ConsumerStep.take hmove) hrun, hstop⟩

end Invariant

/-- **A ring behaves as a queue** from `s₀` on: in every interleaving of the
stores of `Push` with the reader

* what was received is a prefix of what was pushed, TRB by TRB up to the cycle
  bit and each at the address its `Push` returned;
* a reader that cannot move has received every push that has returned;
* from every state the reader gets there by its own steps. -/
def IsQueue (s₀ : RingSystem) : Prop :=
  ∀ s, ReflTransGen Step s₀ s →
    s.received.map view <+: s.pushed.map view ∧
      (s.consumer.step s.ring = none →
        s.completed.map view <+: s.received.map view ∧
          (s.pending = [] → s.received.map view = s.pushed.map view)) ∧
      ∃ s', ReflTransGen ConsumerStep s s' ∧ s'.consumer.step s'.ring = none

/-- **A command or transfer ring is a FIFO queue.**  After a successful
`Initialize(n)` it behaves as one, provided that its `n` TRBs fit the address
space. -/
theorem ring_fifo {n : Nat} (hn : 3 ≤ n) (hfit : 16 * n < 2 ^ 64) {r₀ r : Ring}
    {pool pool' : Usb.Pool} (hinit : r₀.initializeRing n pool = (.kSuccess, r, pool')) :
    IsQueue (start r) := by
  intro s hrun
  obtain ⟨-, halign, hsize, hcycle, hindex, hmem⟩ := Ring.initializeRing_success hfit hinit
  have hstart : (start r).Inv n 0 0 0 := inv_start hn halign hsize hcycle hindex hmem
  obtain ⟨P, Q, C, h⟩ := inv_of_run hn hfit ⟨0, 0, 0, hstart⟩ hrun
  refine ⟨h.faithful, fun hblock => ?_, h.drain hn hfit⟩
  have hall := h.blocked hn hfit hblock
  refine ⟨hall, fun hidle => ?_⟩
  rw [completed, if_pos hidle] at hall
  exact h.faithful.eq_of_length_le hall.length_le

/-! ## A ring whose size in bytes wraps -/

/-- A TRB that a reader with cycle state 1 takes. -/
def Shown (t : Trb) : Prop := t.cycleBit = true ∧ t.trbType ≠ linkType

/-- **On the way to the uncleared slot.**  The first `k` slots are pushed and
nothing is read yet; slot `c` shows a TRB that nobody pushed. -/
structure Filling (c k : Nat) (s : RingSystem) : Prop where
  idle : s.pending = []
  reader : s.consumer = ⟨s.ring.slotAddr 0, true⟩
  pushes : s.pushed.length = k
  unread : s.received = []
  buf : s.ring.buf ≠ nullptr
  room : c + 3 ≤ s.ring.bufSize
  cycle : s.ring.cycleBit = true
  index : s.ring.writeIndex = k
  shown : ∀ i, i < k ∨ i = c → Shown (s.ring.mem i)

/-- One more push, far from the end of the buffer, goes to the next slot and follows no link. -/
theorem Filling.push {c k : Nat} {s : RingSystem} (h : Filling c k s) (hk : k < c) :
    ∃ s', ReflTransGen Step s s' ∧ Filling c (k + 1) s' := by
  have hroom := h.room
  have hpush : s.ring.push enableSlotCommandTRB = .ok (s.ring.slotAddr s.ring.writeIndex,
      s.ring.advance.applyStores (s.ring.pushStores enableSlotCommandTRB)) := if_neg h.buf
  have hinside : ¬ s.ring.writeIndex + 1 = s.ring.bufSize - 1 := by
    rw [h.index]
    omega
  obtain ⟨hbuf, hsize, hindex, hcycle⟩ :=
    Ring.applyStores_frame (s.ring.pushStores enableSlotCommandTRB) s.ring.advance
  obtain ⟨hnew, hold⟩ := Ring.push_mem s.ring enableSlotCommandTRB
  refine ⟨_, push_is_run (by decide) h.idle (by rw [h.pushes, h.unread]; exact (by omega)) hpush,
    ?_⟩
  constructor
  case idle => rfl
  case reader =>
    show s.consumer = ⟨trbAddr (Ring.applyStores _ _).buf 0, true⟩
    rw [hbuf, Ring.advance_buf]
    exact h.reader
  case pushes => rw [List.length_append, List.length_singleton, h.pushes]
  case unread => exact h.unread
  case buf =>
    rw [hbuf, Ring.advance_buf]
    exact h.buf
  case room =>
    rw [hsize, Ring.advance_bufSize]
    exact h.room
  case cycle => rw [hcycle, Ring.advance, if_neg hinside, h.cycle]
  case index => rw [hindex, Ring.advance, if_neg hinside, h.index]
  case shown =>
    intro i hi
    by_cases hik : i = k
    · rw [hik, ← h.index, hnew, h.cycle]
      exact ⟨Trb.cycleBit_stamp _ _, by rw [Trb.trbType_stamp]; decide⟩
    · rw [hold i (by rw [h.index]; exact hik) (by omega)]
      exact h.shown i (by omega)

/-- All slots up to the uncleared one can be filled before the reader moves. -/
theorem Filling.fill {c : Nat} {s : RingSystem} (h : Filling c 0 s) (k : Nat) (hk : k ≤ c) :
    ∃ s', ReflTransGen Step s s' ∧ Filling c k s' := by
  induction k with
  | zero => exact ⟨s, ReflTransGen.refl, h⟩
  | succ k ih =>
      obtain ⟨s₁, hrun₁, h₁⟩ := ih (by omega)
      obtain ⟨s₂, hrun₂, h₂⟩ := h₁.push (by omega)
      exact ⟨s₂, hrun₁.trans hrun₂, h₂⟩

/-- A reader takes every slot that shows a TRB, whoever put it there, by induction on the slots.
-/
theorem taken_of_shown {s : RingSystem} {m : Nat} (hm : m ≤ s.ring.bufSize)
    (hfit : 16 * m ≤ 2 ^ 64) (hshown : ∀ i, i < m → Shown (s.ring.mem i))
    (hreader : s.consumer = ⟨s.ring.slotAddr 0, true⟩) (j : Nat) (hj : j ≤ m) :
    ∃ s', ReflTransGen ConsumerStep s s' ∧ s'.ring = s.ring ∧ s'.pushed = s.pushed ∧
      s'.consumer = ⟨s.ring.slotAddr j, true⟩ ∧
      s'.received.length = s.received.length + j := by
  induction j with
  | zero => exact ⟨s, ReflTransGen.refl, rfl, rfl, hreader, rfl⟩
  | succ j ih =>
      obtain ⟨s', hrun, hring, hpushed, hpos, hlen⟩ := ih (by omega)
      obtain ⟨hcycle, hkind⟩ := hshown j (by omega)
      have hslot : s'.ring.slotAt (s.ring.slotAddr j) = some j := by
        rw [hring]
        exact trbIndex_trbAddr_of_lt _ (by omega) (by omega)
      have htake : s'.consumer.step s'.ring = some (⟨s.ring.slotAddr (j + 1), true⟩,
          some (s.ring.slotAddr j, s.ring.mem j)) := by
        rw [hpos, Consumer.step, hslot, hring]
        dsimp only
        rw [if_neg (not_not.mpr hcycle), if_neg hkind, Ring.slotAddr, trbAddr_succ]
        rfl
      refine ⟨_, hrun.tail (ConsumerStep.take htake), hring, hpushed, rfl, ?_⟩
      rw [List.length_append, List.length_singleton, hlen]
      rfl

/-- The reader's own moves are a run of the system. -/
theorem run_of_reads {s s' : RingSystem} (h : ReflTransGen ConsumerStep s s') :
    ReflTransGen Step s s' :=
  ReflTransGen.mono (fun _ _ => Step.read) _ _ h

/-- **A slot that was never cleared** reaches the reader as if it had been pushed: `c` pushes
give `c + 1` TRBs received. -/
theorem Filling.overtakes {c : Nat} {s : RingSystem} (h : Filling c 0 s)
    (hfit : 16 * (c + 1) ≤ 2 ^ 64) :
    ∃ s', ReflTransGen Step s s' ∧ s'.pushed.length = c ∧ s'.received.length = c + 1 := by
  obtain ⟨s₁, hrun₁, h₁⟩ := h.fill c (Nat.le_refl c)
  have hroom := h₁.room
  obtain ⟨s₂, hrun₂, -, hpushed, -, hlen⟩ := taken_of_shown (m := c + 1) (by omega) hfit
    (fun i hi => h₁.shown i (by omega)) h₁.reader (c + 1) (Nat.le_refl _)
  refine ⟨s₂, hrun₁.trans (run_of_reads hrun₂), ?_, ?_⟩
  · rw [hpushed, h₁.pushes]
  · rw [hlen, h₁.unread, List.length_nil, Nat.zero_add]

/-- What the memory of a ring may hold before `Initialize`: a TRB with cycle
bit 1 in every slot. -/
def dirtyRing : Ring := ⟨nullptr, 0, false, 0, fun _ => Trb.zero.stamp true⟩

/-- From `2 ^ 60` slots on, `Initialize` clears `n % 2 ^ 60` of them only, since the number of
bytes wraps; what is behind is what was there. -/
theorem filling_dirtyRing {n : Nat} (hn : 2 ^ 60 ≤ n) {block : Addr × Usb.Pool}
    (hblock : block.1 ≠ nullptr) :
    Filling (n % 2 ^ 60) 0 (start (dirtyRing.useBlock n block).2.1) := by
  rw [Ring.useBlock_of_ne _ _ hblock]
  constructor
  case idle => rfl
  case reader => rfl
  case pushes => rfl
  case unread => rfl
  case buf => exact hblock
  case room => exact (by omega : n % 2 ^ 60 + 3 ≤ n)
  case cycle => rfl
  case index => rfl
  case shown =>
    intro i hi
    obtain rfl : i = n % 2 ^ 60 := by omega
    show Shown (if n % 2 ^ 60 < n % 2 ^ 60 then Trb.zero else Trb.zero.stamp true)
    rw [if_neg (Nat.lt_irrefl _)]
    exact ⟨Trb.cycleBit_stamp _ _, by rw [Trb.trbType_stamp]; decide⟩

/-- **`Initialize(n)` makes a queue** of a block of the pool, whatever the ring
and its memory held before. -/
def MakesQueue (n : Nat) (pool : Usb.Pool) : Prop :=
  ∀ (r₀ r : Ring) (pool' : Usb.Pool),
    r₀.initializeRing n pool = (.kSuccess, r, pool') → IsQueue (start r)

/-- **When a successful `Initialize(n)` makes a queue**: exactly when the size
in bytes, a `size_t` product, does not wrap.  Beyond that the block is too
small and the slots behind it are not cleared, and the reader receives what
happens to be there. -/
theorem makesQueue_iff {n : Nat} (hn : 3 ≤ n) {r₀ : Ring} {pool : Usb.Pool}
    (hok : (r₀.initializeRing n pool).1 = .kSuccess) : MakesQueue n pool ↔ n < 2 ^ 60 := by
  constructor
  · intro hqueue
    by_contra hge
    obtain ⟨block, hblock⟩ : ∃ block,
      pool.allocArray 16 (BitVec.ofNat 64 n) 64 (64 * 1024) = block := ⟨_, rfl⟩
    have huse : ∀ r : Ring, r.initializeRing n pool = r.useBlock n block := by
      intro r
      rw [Ring.initializeRing, hblock]
    rw [huse] at hok
    have hne := Ring.useBlock_ne_nullptr hok
    have hinit : dirtyRing.initializeRing n pool = (.kSuccess,
        (dirtyRing.useBlock n block).2.1, (dirtyRing.useBlock n block).2.2) := by
      rw [huse, Ring.useBlock_of_ne _ _ hne]
    obtain ⟨s, hrun, hpushed, hreceived⟩ :=
      (filling_dirtyRing (n := n) (by omega) hne).overtakes (by omega)
    have hle := (hqueue _ _ _ hinit s hrun).1.length_le
    rw [List.length_map, List.length_map, hpushed, hreceived] at hle
    omega
  · intro hlt r r' pool' hinit
    exact ring_fifo hn (by omega) hinit

/-- **One TRB at a time.**  When the reader catches up after every `Push`, any
sequence of TRBs passes through the ring, lap after lap. -/
theorem IsQueue.pass {n : Nat} (hn : 3 ≤ n) {r : Ring} (hqueue : IsQueue (start r))
    (hempty : r.Remembers n []) {ts : List Trb} (hkind : ∀ t ∈ ts, t.trbType ≠ linkType) :
    ∃ s, ReflTransGen Step (start r) s ∧ s.pending = [] ∧ s.ring.buf = r.buf ∧
      s.ring.Remembers n ts ∧
      s.pushed = ts.mapIdx (fun k t => (r.slotAddr (k % (n - 1)), t)) ∧
      s.received.map view = s.pushed.map view := by
  induction ts using List.reverseRecOn with
  | nil => exact ⟨start r, ReflTransGen.refl, rfl, rfl, hempty, rfl, rfl⟩
  | append_singleton ts t ih =>
      obtain ⟨s, hrun, hidle, hbuf, hring, hpushed, hread⟩ :=
        ih (fun u hu => hkind u (List.mem_append_left _ hu))
      obtain ⟨r', hpush, hbuf', hring'⟩ := hring.push (by omega) t
      have hlen := congrArg List.length hread
      rw [List.length_map, List.length_map] at hlen
      have hroom : s.pushed.length + 3 ≤ s.received.length + s.ring.bufSize := by
        rw [hlen, hring.size]
        omega
      have hbegun := hrun.trans (push_is_run (hkind t (by simp)) hidle hroom hpush)
      obtain ⟨-, -, s', hmoves, hstop⟩ := hqueue _ hbegun
      have hframe : s'.pending = [] ∧ s'.ring = r' ∧
          s'.pushed = s.pushed ++ [(s.ring.slotAddr (ts.length % (n - 1)), t)] := by
        clear hstop
        induction hmoves with
        | refl => exact ⟨rfl, rfl, rfl⟩
        | tail _ hmove ih => cases hmove <;> exact ih
      obtain ⟨hidle', hring'', hpushed'⟩ := hframe
      have hlast := hbegun.trans (run_of_reads hmoves)
      refine ⟨s', hlast, hidle', ?_, ?_, ?_, ((hqueue s' hlast).2.1 hstop).2 hidle'⟩
      · rw [hring'', hbuf', hbuf]
      · rw [hring'']
        exact hring'
      · rw [hpushed', hpushed, List.mapIdx_concat, Ring.slotAddr, hbuf]
        rfl

/-- A ring of three slots on a fresh pool. -/
def smallRing : Ring :=
  ((⟨nullptr, 0, false, 0, fun _ => Trb.zero⟩ : Ring).initializeRing 3
    (Usb.Pool.init Usb.samplePool)).2.1

/-- Three TRBs through a ring of three slots: the reader follows the link TRB
after the second and finds the third in slot 0 again. -/
theorem makesQueue_iff_three : ∃ s, ReflTransGen Step (start smallRing) s ∧
    s.received.map view = [(smallRing.slotAddr 0, enableSlotCommandTRB.stamp false),
      (smallRing.slotAddr 1, dataStageTRB.stamp false),
      (smallRing.slotAddr 0, statusStageTRB.stamp false)] := by
  let r₀ : Ring := ⟨nullptr, 0, false, 0, fun _ => Trb.zero⟩
  have hok : (r₀.initializeRing 3 (Usb.Pool.init Usb.samplePool)).1 = .kSuccess := by decide
  have hinit : r₀.initializeRing 3 (Usb.Pool.init Usb.samplePool) =
      (.kSuccess, smallRing, (r₀.initializeRing 3 (Usb.Pool.init Usb.samplePool)).2.2) := by
    rw [← hok]
    rfl
  have hqueue : IsQueue (start smallRing) :=
    (makesQueue_iff (by decide) hok).mpr (by decide) _ _ _ hinit
  have hempty : smallRing.Remembers 3 [] :=
    Ring.remembers_nil (by decide) rfl rfl
  have hkind : ∀ t ∈ [enableSlotCommandTRB, dataStageTRB, statusStageTRB],
      t.trbType ≠ linkType := by decide
  obtain ⟨s, hrun, -, -, -, hpushed, hread⟩ := hqueue.pass (by decide) hempty hkind
  refine ⟨s, hrun, ?_⟩
  rw [hread, hpushed]
  rfl

/-- **A TRB nobody pushed.**  On a ring of `2 ^ 60 + 3` slots `Initialize`
allocates and clears three; after three pushes the reader takes a fourth TRB. -/
theorem oversized_ring_delivers_garbage : ∃ (r₀ r : Ring) (pool' : Usb.Pool) (s : RingSystem),
    r₀.initializeRing (2 ^ 60 + 3) (Usb.Pool.init Usb.samplePool) = (.kSuccess, r, pool') ∧
      ReflTransGen Step (start r) s ∧ s.pushed.length = 3 ∧ s.received.length = 4 ∧
      ¬ s.received.map view <+: s.pushed.map view := by
  have hok : (dirtyRing.initializeRing (2 ^ 60 + 3) (Usb.Pool.init Usb.samplePool)).1 =
      .kSuccess := by decide
  have hblock := Ring.useBlock_ne_nullptr hok
  obtain ⟨s, hrun, hpushed, hreceived⟩ :=
    (filling_dirtyRing (n := 2 ^ 60 + 3) (by decide) hblock).overtakes (by decide)
  refine ⟨dirtyRing, _, (dirtyRing.initializeRing (2 ^ 60 + 3) (Usb.Pool.init Usb.samplePool)).2.2,
    s, ?_, hrun, hpushed, hreceived, fun hprefix => ?_⟩
  · rw [Ring.initializeRing, Ring.useBlock_of_ne _ _ hblock]
  · have hle := hprefix.length_le
    rw [List.length_map, List.length_map, hpushed, hreceived] at hle
    exact absurd hle (by decide)

end RingSystem

end Mikanos.Xhci
