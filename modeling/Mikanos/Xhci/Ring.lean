import Mikanos.Usb.Memory
import Mikanos.Xhci.TrbStores

/-!
# Command and transfer rings

`Ring` is the producer side of a command or transfer ring.  `Push` writes one
TRB with four 32-bit stores, the word with the cycle bit last; when it has
filled the last slot before the end of the buffer it writes a link TRB there
with four more, returns to slot 0 and flips its cycle bit.

The stores are first-class here (`Ring.pushStores`), because the controller
reads the ring while `Push` runs: `Ring.push` is the call as a whole, performing
all of its stores, and the interleavings are the subject of `RingFifo`.
-/

namespace Mikanos.Xhci

open Mikanos.Usb

/-- `class Ring`.  `mem i` is the memory at `buf_[i]`. -/
structure Ring where
  buf : Addr
  bufSize : Nat
  cycleBit : Bool
  writeIndex : Nat
  mem : Nat → Trb

namespace Ring

/-- `&buf_[i]`. -/
def slotAddr (r : Ring) (i : Nat) : Addr := trbAddr r.buf i

/-- The slot at address `p`, if there is one. -/
def slotAt (r : Ring) (p : Addr) : Option Nat := trbIndex r.buf r.bufSize p

/-- The part of `Initialize` after the allocation of the buffer. -/
def useBlock (r : Ring) (bufSize : Nat) (block : Addr × Pool) : Error × Ring × Pool :=
  let r := { r with cycleBit := true, writeIndex := 0, bufSize := bufSize, buf := block.1 }
  if block.1 = nullptr then (.kNoEnoughMemory, r, block.2)
  else
    -- memset(buf_, 0, buf_size_ * sizeof(TRB)), the product being a size_t
    let cleared := (BitVec.ofNat 64 bufSize * 16).toNat / 16
    (.kSuccess, { r with mem := fun i => if i < cleared then Trb.zero else r.mem i }, block.2)

/-- `Ring::Initialize(buf_size)`. -/
def initializeRing (r : Ring) (bufSize : Nat) (pool : Pool) : Error × Ring × Pool :=
  r.useBlock bufSize (pool.allocArray 16 (BitVec.ofNat 64 bufSize) 64 (64 * 1024))

/-- A single store takes effect. -/
def applyStore (r : Ring) (s : Store) : Ring := { r with mem := s.apply r.mem }

/-- A sequence of stores takes effect in program order. -/
def applyStores (r : Ring) (stores : List Store) : Ring := stores.foldl applyStore r

/-- The stores of `CopyToLast(data)`: words 0 to 2 and then word 3 with the
cycle bit. -/
def copyToLast (r : Ring) (data : Trb) : List Store :=
  [⟨r.writeIndex, 0, data.data 0⟩, ⟨r.writeIndex, 1, data.data 1⟩,
    ⟨r.writeIndex, 2, data.data 2⟩,
    ⟨r.writeIndex, 3, Trb.stampWord (data.data 3) r.cycleBit⟩]

/-- The link TRB `Push` places at the end of the buffer. -/
def link (r : Ring) : Trb := (linkTRB r.buf).setBits 3 1 (1 : BitVec 1)

/-- All stores of one `Push(data)`. -/
def pushStores (r : Ring) (data : Trb) : List Store :=
  let r' := { r with writeIndex := r.writeIndex + 1 }
  r.copyToLast data ++ if r'.writeIndex = r'.bufSize - 1 then r'.copyToLast r'.link else []

/-- What one `Push` does to `write_index_` and `cycle_bit_`. -/
def advance (r : Ring) : Ring :=
  if r.writeIndex + 1 = r.bufSize - 1 then
    { r with writeIndex := 0, cycleBit := !r.cycleBit }
  else { r with writeIndex := r.writeIndex + 1 }

/-- `Ring::Push(data)`: the address of the TRB on the ring, and the ring with
all stores performed. -/
def push (r : Ring) (data : Trb) : Except Fault (Addr × Ring) :=
  if r.buf = nullptr then .error .nullDereference
  else .ok (r.slotAddr r.writeIndex, r.advance.applyStores (r.pushStores data))

/-! ## Frame lemmas -/

/-- Counting the index on does not move the ring. -/
@[simp] theorem advance_buf (r : Ring) : r.advance.buf = r.buf := by
  unfold advance; split <;> rfl

@[simp] theorem advance_bufSize (r : Ring) : r.advance.bufSize = r.bufSize := by
  unfold advance; split <;> rfl

/-- Moving the write index on to the next TRB writes to none of the TRBs. -/
@[simp] theorem advance_mem (r : Ring) : r.advance.mem = r.mem := by
  unfold advance; split <;> rfl

/-- Stores touch nothing but the memory. -/
theorem applyStores_frame (stores : List Store) :
    ∀ r : Ring, (r.applyStores stores).buf = r.buf ∧
      (r.applyStores stores).bufSize = r.bufSize ∧
      (r.applyStores stores).writeIndex = r.writeIndex ∧
      (r.applyStores stores).cycleBit = r.cycleBit := by
  induction stores with
  | nil => exact fun r => ⟨rfl, rfl, rfl, rfl⟩
  | cons s ss ih => exact fun r => ih (r.applyStore s)

/-! ## The link TRB -/

/-- The link at the end of the ring is a link TRB. -/
@[simp] theorem trbType_link (r : Ring) : r.link.trbType = linkType := by
  rw [link, Trb.trbType, Trb.bits_setBits_of_disjoint _ _ _ _ _ _ (by decide), linkTRB,
    Trb.bits_setPointer60_of_ne _ _ _ _ (by decide) (by decide),
    Trb.bits_setBits_same _ _ _ _ (by decide)]
  rfl

/-- The Link TRB of a ring toggles the cycle state of the controller that reads it. -/
@[simp] theorem toggleCycle_link (r : Ring) : r.link.toggleCycle = true := by
  rw [Trb.toggleCycle, link, Trb.data_setBits_same, BitField.getLsbD_setField,
    if_pos (by decide)]
  decide

/-- The link leads back to the start of the buffer. -/
theorem pointer60_link (r : Ring) (h : 16 ∣ r.buf.toNat) : r.link.pointer60 = r.buf := by
  have hpar : r.link.parameter = (linkTRB r.buf).parameter :=
    Trb.parameter_congr (Trb.data_setBits_of_ne _ _ _ (by decide))
      (Trb.data_setBits_of_ne _ _ _ (by decide))
  rw [Trb.pointer60, hpar, ← Trb.pointer60, linkTRB, Trb.pointer60_setPointer60 _ h]

/-! ## Initialization -/

/-- **What `Initialize` makes of a block**: an empty ring, of which the `memset`
has cleared as many slots as the product `16 * n` says in 64 bits.  The others
keep what the memory held before. -/
theorem useBlock_of_ne (r : Ring) (n : Nat) {block : Addr × Pool} (hnull : block.1 ≠ nullptr) :
    r.useBlock n block = (.kSuccess,
      { buf := block.1, bufSize := n, cycleBit := true, writeIndex := 0,
        mem := fun i => if i < n % 2 ^ 60 then Trb.zero else r.mem i }, block.2) := by
  rw [useBlock, toNat_size_div_mod, if_neg hnull]

/-- Whether `Initialize` succeeds is decided by the block alone. -/
theorem useBlock_ne_nullptr {r : Ring} {n : Nat} {block : Addr × Pool}
    (h : (r.useBlock n block).1 = .kSuccess) : block.1 ≠ nullptr := by
  intro hnull
  rw [useBlock, if_pos hnull] at h
  cases h

/-- The outcome of `Initialize` for a given block. -/
theorem useBlock_success {r r' : Ring} {n : Nat} {block : Addr × Pool} {pool' : Pool}
    (hfit : 16 * n < 2 ^ 64) (h : r.useBlock n block = (.kSuccess, r', pool')) :
    block.1 ≠ nullptr ∧ r'.buf = block.1 ∧ r'.bufSize = n ∧ r'.cycleBit = true ∧
      r'.writeIndex = 0 ∧ (∀ i, i < n → r'.mem i = Trb.zero) ∧ pool' = block.2 := by
  have hnull : block.1 ≠ nullptr := useBlock_ne_nullptr (congrArg Prod.fst h)
  rw [useBlock_of_ne r n hnull, Nat.mod_eq_of_lt (by omega : n < 2 ^ 60)] at h
  cases h
  exact ⟨hnull, rfl, rfl, rfl, rfl, fun i hi => if_pos hi, rfl⟩

/-- Whatever the block, `Initialize` sets the size and starts at slot 0. -/
theorem useBlock_empty (r : Ring) (n : Nat) (block : Addr × Pool) :
    (r.useBlock n block).2.1.bufSize = n ∧ (r.useBlock n block).2.1.writeIndex = 0 := by
  unfold useBlock
  split <;> exact ⟨rfl, rfl⟩

/-- **A successful `Initialize`** yields an empty ring: a non-null buffer on a
16-byte boundary (in fact 64), all slots zero, writing from slot 0 with cycle 1. -/
theorem initializeRing_success {r r' : Ring} {n : Nat} {pool pool' : Pool}
    (hfit : 16 * n < 2 ^ 64) (h : r.initializeRing n pool = (.kSuccess, r', pool')) :
    r'.buf ≠ nullptr ∧ 64 ∣ r'.buf.toNat ∧ r'.bufSize = n ∧ r'.cycleBit = true ∧
      r'.writeIndex = 0 ∧ ∀ i, i < n → r'.mem i = Trb.zero := by
  have hdvd : 2 ^ 6 ∣ (pool.allocArray 16 (BitVec.ofNat 64 n) 64 (64 * 1024)).1.toNat :=
    dvd_allocMem (j := 16) rfl rfl (by decide)
  obtain ⟨hnull, hbuf, hsize, hcycle, hidx, hmem, -⟩ := useBlock_success hfit h
  rw [hbuf]
  exact ⟨hnull, hdvd, hsize, hcycle, hidx, hmem⟩

/-! ## The ring between two calls -/

/-- The stores of `CopyToLast` together fill one slot. -/
theorem mem_applyStores_copyToLast (r r₀ : Ring) (data : Trb) :
    (r.applyStores (r₀.copyToLast data)).mem =
      Function.update r.mem r₀.writeIndex (data.stamp r₀.cycleBit) := by
  simp only [copyToLast, applyStores, List.foldl_cons, List.foldl_nil, applyStore, Store.apply,
    Function.update_self, Function.update_idem]
  congr 1
  ext w : 2
  fin_cases w <;> rfl

/-- The slots after a `Push`: the TRB is at the write index with the cycle bit of the ring, and
all others but the link are as before. -/
theorem push_mem (r : Ring) (data : Trb) :
    (r.advance.applyStores (r.pushStores data)).mem r.writeIndex = data.stamp r.cycleBit ∧
      ∀ i, i ≠ r.writeIndex → i ≠ r.bufSize - 1 →
        (r.advance.applyStores (r.pushStores data)).mem i = r.mem i := by
  let r' : Ring := { r with writeIndex := r.writeIndex + 1 }
  have hsplit : r.advance.applyStores (r.pushStores data) =
      (r.advance.applyStores (r.copyToLast data)).applyStores
        (if r'.writeIndex = r'.bufSize - 1 then r'.copyToLast r'.link else []) :=
    List.foldl_append
  rw [hsplit]
  by_cases hlast : r'.writeIndex = r'.bufSize - 1
  · have hne : r.writeIndex ≠ r'.writeIndex := Nat.ne_of_lt (Nat.lt_succ_self _)
    rw [if_pos hlast, mem_applyStores_copyToLast, mem_applyStores_copyToLast, advance_mem]
    refine ⟨?_, fun i hi hend => ?_⟩
    · rw [Function.update_of_ne hne, Function.update_self]
    · have hlink : i ≠ r'.writeIndex := by rw [hlast]; exact hend
      rw [Function.update_of_ne hlink, Function.update_of_ne hi]
  · have hmem : ((r.advance.applyStores (r.copyToLast data)).applyStores []).mem =
        Function.update r.mem r.writeIndex (data.stamp r.cycleBit) := by
      rw [applyStores, List.foldl_nil, mem_applyStores_copyToLast, advance_mem]
    rw [if_neg hlast, hmem]
    exact ⟨Function.update_self _ _ _, fun i hi _ => Function.update_of_ne hi _ _⟩

/-- **`Push` on a ring with a buffer** returns, and the ring keeps its buffer. -/
theorem push_of_ne {r : Ring} (h : r.buf ≠ nullptr) (data : Trb) :
    ∃ p r', r.push data = .ok (p, r') ∧ r'.buf ≠ nullptr := by
  refine ⟨_, _, if_neg h, ?_⟩
  rw [(applyStores_frame _ _).1, advance_buf]
  exact h

/-- A `Push` can only come to grief on a ring without buffer, by writing through a null pointer;
it has no other fault. -/
theorem push_ne_error {r : Ring} {data : Trb} {f : Fault} (hf : f ≠ .nullDereference) :
    r.push data ≠ .error f := by
  unfold push
  split
  · intro h
    cases h
    exact hf rfl
  · intro h
    cases h

/-- **What a ring remembers.**  `history` is the list of TRBs pushed so far; the
last `n - 1` of them are still in their slots, up to the cycle bit. -/
structure Remembers (r : Ring) (n : Nat) (history : List Trb) : Prop where
  nonnull : r.buf ≠ nullptr
  size : r.bufSize = n
  index : r.writeIndex = history.length % (n - 1)
  recent : ∀ k t, history[k]? = some t → history.length ≤ k + (n - 1) →
    (r.mem (k % (n - 1))).stamp false = t.stamp false

/-- A freshly initialized ring has nothing to remember. -/
theorem remembers_nil {r : Ring} {n : Nat} (hbuf : r.buf ≠ nullptr) (hsize : r.bufSize = n)
    (hindex : r.writeIndex = 0) : r.Remembers n [] where
  nonnull := hbuf
  size := hsize
  index := hindex.trans (Nat.zero_mod _).symm
  recent := fun k t h => by simp at h

/-- **`Push` on a ring with a history** succeeds, returns the slot after the
last one and is remembered. -/
theorem Remembers.push {r : Ring} {n : Nat} {history : List Trb} (hn : 2 ≤ n)
    (h : r.Remembers n history) (data : Trb) :
    ∃ r', r.push data = .ok (r.slotAddr (history.length % (n - 1)), r') ∧ r'.buf = r.buf ∧
      r'.Remembers n (history ++ [data]) := by
  obtain ⟨hbuf, hsize, hindex, -⟩ := applyStores_frame (r.pushStores data) r.advance
  obtain ⟨hnew, hold⟩ := push_mem r data
  have hn0 : 0 < n - 1 := by omega
  have hlt := Nat.mod_lt history.length hn0
  refine ⟨_, by rw [Ring.push, if_neg h.nonnull, h.index], hbuf.trans (advance_buf r), ?_⟩
  refine ⟨?_, ?_, ?_, ?_⟩
  · rw [hbuf, advance_buf]
    exact h.nonnull
  · rw [hsize, advance_bufSize, h.size]
  · rw [hindex, List.length_append, List.length_singleton, advance, h.index, h.size]
    rcases CycleRing.slot_succ hn0 history.length with ⟨hroom, hmod, -⟩ | ⟨hlast, hmod, -⟩
    · rw [if_neg (by omega), hmod]
    · rw [if_pos hlast, hmod]
  · intro k t hk hrecent
    rw [List.length_append, List.length_singleton] at hrecent
    rcases Nat.lt_or_ge k history.length with hlt' | hge
    · rw [List.getElem?_append_left hlt'] at hk
      have hne : k % (n - 1) ≠ history.length % (n - 1) := fun heq =>
        absurd (CycleRing.slot_injective (Nat.le_of_lt hlt') (by omega) heq) (by omega)
      have hkn := Nat.mod_lt k hn0
      rw [hold _ (by rw [h.index]; exact hne) (by rw [h.size]; omega)]
      exact h.recent k t hk (by omega)
    · have hkeq : k = history.length := by
        have hlen := (List.getElem?_eq_some_iff.mp hk).1
        rw [List.length_append, List.length_singleton] at hlen
        omega
      rw [hkeq, List.getElem?_append_right (Nat.le_refl _), Nat.sub_self] at hk
      obtain rfl : data = t := Option.some.inj hk
      rw [hkeq, ← h.index, hnew, Trb.stamp_stamp]

end Ring

end Mikanos.Xhci
