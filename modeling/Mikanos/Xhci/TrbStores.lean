import Mikanos.Lib.CycleRing
import Mikanos.Xhci.Trb

/-!
# Filling ring slots word by word

Whoever produces TRBs, the driver on a command or transfer ring or the
controller on the event ring, fills a slot with 32-bit stores and sets the
cycle bit with the last one.  Until then the slot shows its old cycle bit, so a
reader that trusts the cycle bit never sees a half-written TRB.

`Pending` relates the stores a producer has still to perform to the positions
they fill: positions below `P` are published, positions from `P` up to `Q` are
announced, and of position `P` some words may already be written.
`Pending.store` is the step lemma: the next store either writes a word of slot
`P % n`, which leaves `CycleRing.Inv` alone, or publishes position `P`.
-/

namespace Mikanos.Xhci

open CycleRing

/-! ## TRB arrays in memory -/

/-- `&buf[i]` for an array of TRBs. -/
def trbAddr (buf : Addr) (i : Nat) : Addr := buf + BitVec.ofNat 64 (16 * i)

/-- The index of the TRB at address `p` in an array of `size` TRBs, if there is
one. -/
def trbIndex (buf : Addr) (size : Nat) (p : Addr) : Option Nat :=
  let offset := (p - buf).toNat
  if offset % 16 = 0 ∧ offset / 16 < size then some (offset / 16) else none

/-- A TRB that begins inside the address space is found again at its address,
however far the array goes on behind it. -/
theorem trbIndex_trbAddr_of_lt (buf : Addr) {size i : Nat} (hi : i < size)
    (hfit : 16 * i < 2 ^ 64) : trbIndex buf size (trbAddr buf i) = some i := by
  have hoff : (trbAddr buf i - buf).toNat = 16 * i := by
    rw [trbAddr, BitVec.add_comm, BitVec.add_sub_cancel, BitVec.toNat_ofNat]
    exact Nat.mod_eq_of_lt hfit
  have hmod : 16 * i % 16 = 0 := Nat.mul_mod_right 16 i
  have hdiv : 16 * i / 16 = i := Nat.mul_div_cancel_left i (by decide)
  simp only [trbIndex, hoff, hmod, hdiv, hi, and_self, if_true]

/-- In an array that fits the address space, each TRB's address leads back to
its index. -/
theorem trbIndex_trbAddr (buf : Addr) {size i : Nat} (hi : i < size)
    (hfit : 16 * size < 2 ^ 64) : trbIndex buf size (trbAddr buf i) = some i :=
  trbIndex_trbAddr_of_lt buf hi (by omega)

/-- Distinct indices have distinct addresses. -/
theorem trbAddr_injective (buf : Addr) (size : Nat) {i j : Nat} (hi : i < size) (hj : j < size)
    (hfit : 16 * size < 2 ^ 64) (h : trbAddr buf i = trbAddr buf j) : i = j := by
  have hs := trbIndex_trbAddr buf hi hfit
  rw [h, trbIndex_trbAddr buf hj hfit] at hs
  exact (Option.some.inj hs).symm

/-- The TRB after index `i`. -/
theorem trbAddr_succ (buf : Addr) (i : Nat) : trbAddr buf i + 16 = trbAddr buf (i + 1) := by
  have h16 : (16 : Addr) = BitVec.ofNat 64 16 := rfl
  rw [trbAddr, trbAddr, BitVec.add_assoc, h16, ← BitVec.ofNat_add, Nat.mul_succ]

@[simp] theorem trbAddr_zero (buf : Addr) : trbAddr buf 0 = buf := by
  simp [trbAddr]

/-- The size in bytes is a 64-bit product: it leads back to the length modulo
`2 ^ 60`. -/
theorem toNat_size_div_mod (size : Nat) :
    (BitVec.ofNat 64 size * 16).toNat / 16 = size % 2 ^ 60 := by
  have h16 : (16 : BitVec 64).toNat = 16 := rfl
  rw [BitVec.toNat_mul, BitVec.toNat_ofNat, h16]
  omega

/-- The size in bytes of an array that fits the address space leads back to its length. -/
theorem toNat_size_div {size : Nat} (hfit : 16 * size < 2 ^ 64) :
    (BitVec.ofNat 64 size * 16).toNat / 16 = size := by
  rw [toNat_size_div_mod, Nat.mod_eq_of_lt (by omega)]

/-- The TRBs of an array on a 16-byte boundary are on 16-byte boundaries. -/
theorem dvd_trbAddr {buf : Addr} (h : 16 ∣ buf.toNat) (i : Nat) : 16 ∣ (trbAddr buf i).toNat := by
  have hwrap : (16 : Nat) ∣ 2 ^ 64 := by decide
  rw [trbAddr, BitVec.toNat_add, BitVec.toNat_ofNat, Nat.add_mod_mod]
  exact (Nat.dvd_mod_iff hwrap).mpr (Nat.dvd_add h (Nat.dvd_mul_right 16 i))

/-! ## Stores -/

/-- One 32-bit store `buf_[slot].data[word] = value`. -/
structure Store where
  slot : Nat
  word : Fin 4
  value : BitVec 32
  deriving DecidableEq

/-- The store's effect on the slots. -/
def Store.apply (s : Store) (mem : Nat → Trb) : Nat → Trb :=
  Function.update mem s.slot ((mem s.slot).setWord s.word s.value)

/-- The stores that fill `slot` with `x`: the words `ws`, then word 3. -/
def fillStores (slot : Nat) (x : Trb) (ws : List (Fin 4)) : List Store :=
  ws.map (fun w => ⟨slot, w, x.data w⟩) ++ [⟨slot, 3, x.data 3⟩]

/-- The stores that fill the positions `v, v + 1, …, v + k - 1`. -/
def fillPositions (n : Nat) (item : Nat → Trb) : Nat → Nat → List Store
  | _, 0 => []
  | v, k + 1 => fillStores (v % n) (item v) [0, 1, 2] ++ fillPositions n item (v + 1) k

/-- The stores still to be performed when positions below `P` are published
and those below `Q` announced. -/
inductive Pending (n : Nat) (item mem : Nat → Trb) : Nat → Nat → List Store → Prop
  | idle (P : Nat) : Pending n item mem P P []
  | fill (P k : Nat) (ws : List (Fin 4)) (hws : ∀ w ∈ ws, w ≠ 3)
      (hdone : ∀ w, w ≠ 3 → w ∉ ws → (mem (P % n)).data w = (item P).data w) :
      Pending n item mem P (P + 1 + k)
        (fillStores (P % n) (item P) ws ++ fillPositions n item (P + 1) k)

/-- The published positions are among the announced ones. -/
theorem Pending.le {n : Nat} {item mem : Nat → Trb} {P Q : Nat} {stores : List Store}
    (h : Pending n item mem P Q stores) : P ≤ Q := by
  cases h with
  | idle => exact Nat.le_refl _
  | fill => omega

/-- Without pending stores every announced position is published. -/
theorem Pending.eq_of_nil {n : Nat} {item mem : Nat → Trb} {P Q : Nat}
    (h : Pending n item mem P Q []) : P = Q := by
  generalize hall : ([] : List Store) = all at h
  cases h with
  | idle => rfl
  | fill k ws => simp [fillStores] at hall

/-- With stores pending, an announced position is not yet published. -/
theorem Pending.lt_of_ne_nil {n : Nat} {item mem : Nat → Trb} {P Q : Nat} {stores : List Store}
    (h : Pending n item mem P Q stores) (hne : stores ≠ []) : P < Q := by
  cases h with
  | idle => exact absurd rfl hne
  | fill => omega

/-- Whatever the slots hold, filling positions can start from scratch: all stores of these
positions are pending. -/
theorem pending_start (n : Nat) (item mem : Nat → Trb) (P k : Nat) :
    Pending n item mem P (P + k) (fillPositions n item P k) := by
  cases k with
  | zero => exact Pending.idle P
  | succ k =>
      have h : Pending n item mem P (P + 1 + k)
          (fillStores (P % n) (item P) [0, 1, 2] ++ fillPositions n item (P + 1) k) := by
        refine Pending.fill P k [0, 1, 2] (by decide) ?_
        intro w h3 hnot
        fin_cases w <;> simp_all
      have harith : P + (k + 1) = P + 1 + k := by omega
      rw [harith]
      exact h

/-- A slot all of whose words are those of `x` is `x`. -/
theorem trb_eq_of_words {t x : Trb} (h : ∀ w, w ≠ 3 → t.data w = x.data w) :
    t.setWord 3 (x.data 3) = x := by
  ext i : 2
  by_cases hi : i = 3
  · subst hi
    rw [Trb.setWord_same]
  · rw [Trb.setWord_of_ne t _ hi, h i hi]

/-- **Step lemma for a producer's store.**  As long as the announced positions
stay within one lap of the consumer, a store either leaves the ring's invariant
where it was or publishes exactly the next position. -/
theorem Pending.store {n : Nat} {item mem : Nat → Trb} {P Q C : Nat} {st : Store}
    {rest : List Store} (hpend : Pending n item mem P Q (st :: rest))
    (hinv : Inv n Trb.cycleBit mem item P C) (hroom : Q ≤ C + n)
    (hstamp : ∀ v, P ≤ v → v < Q → (item v).cycleBit = lap n v) :
    ∃ P', P ≤ P' ∧ P' ≤ Q ∧ Inv n Trb.cycleBit (st.apply mem) item P' C ∧
      Pending n item (st.apply mem) P' Q rest := by
  generalize hall : st :: rest = all at hpend
  cases hpend with
  | idle => cases hall
  | fill k ws hws hdone =>
      cases ws with
      | nil =>
          -- Word 3 is the only one missing: this store publishes the slot.
          obtain ⟨rfl, rfl⟩ := List.cons.inj hall
          have hslot : (mem (P % n)).setWord 3 ((item P).data 3) = item P :=
            trb_eq_of_words (fun w h3 => hdone w h3 List.not_mem_nil)
          refine ⟨P + 1, by omega, by omega, ?_, pending_start n item _ (P + 1) k⟩
          show Inv n Trb.cycleBit
            (Function.update mem (P % n) ((mem (P % n)).setWord 3 ((item P).data 3))) item (P + 1) C
          rw [hslot]
          exact hinv.publish (by omega) (hstamp P (Nat.le_refl P) (by omega)) rfl
      | cons w ws =>
          obtain ⟨rfl, rfl⟩ := List.cons.inj hall
          have hw : w ≠ 3 := hws w List.mem_cons_self
          refine ⟨P, Nat.le_refl P, by omega, ?_, ?_⟩
          · refine hinv.scribble (by omega) ?_
            show ((mem (P % n)).setWord w ((item P).data w)).cycleBit = (mem (P % n)).cycleBit
            rw [Trb.cycleBit, Trb.setWord_of_ne _ _ hw.symm, Trb.cycleBit]
          · refine Pending.fill P k ws (fun u hu => hws u (List.mem_cons_of_mem w hu)) ?_
            intro u hu hnot
            show (Function.update mem (P % n)
              ((mem (P % n)).setWord w ((item P).data w)) (P % n)).data u = (item P).data u
            rw [Function.update_self]
            by_cases huw : u = w
            · rw [huw, Trb.setWord_same]
            · rw [Trb.setWord_of_ne _ _ huw]
              refine hdone u hu (fun hmem => ?_)
              rcases List.mem_cons.mp hmem with h | h
              · exact huw h
              · exact hnot h

end Mikanos.Xhci
