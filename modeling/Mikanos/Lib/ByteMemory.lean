import Mathlib.Tactic

/-!
# A byte-addressed memory

The memory of a 64-bit machine, ranges of it, little-endian numbers read from
it, and the two bulk operations every C library has: copying a block (`copy`,
which may overlap its source) and filling one (`fill`).  Each comes with what it
puts at its own bytes and with its frame lemma.

A range that reaches past the last address would be empty there; `Fits` says
that it does not.
-/

namespace Mikanos

/-- The contents of the memory. -/
abbrev ByteMemory := BitVec 64 → BitVec 8

/-- A range of addresses. -/
structure ByteRange where
  first : BitVec 64
  length : Nat
  deriving DecidableEq, Repr

namespace ByteRange

/-- The address belongs to the range. -/
def Contains (r : ByteRange) (x : BitVec 64) : Prop :=
  r.first.toNat ≤ x.toNat ∧ x.toNat < r.first.toNat + r.length

instance (r : ByteRange) (x : BitVec 64) : Decidable (r.Contains x) :=
  inferInstanceAs (Decidable (_ ∧ _))

/-- The range ends within the address space. -/
def Fits (r : ByteRange) : Prop := r.first.toNat + r.length ≤ 2 ^ 64

instance (r : ByteRange) : Decidable r.Fits := inferInstanceAs (Decidable (_ ≤ _))

/-- No address belongs to both ranges. -/
def Disjoint (r s : ByteRange) : Prop := ∀ x, r.Contains x → ¬ s.Contains x

/-- A sum that does not wrap. -/
theorem toNat_add {a : BitVec 64} {k : Nat} (h : a.toNat + k < 2 ^ 64) :
    (a + BitVec.ofNat 64 k).toNat = a.toNat + k := by
  rw [BitVec.toNat_add, BitVec.toNat_ofNat]
  omega

/-- The address number `k` of a range. -/
theorem contains_add {r : ByteRange} (hfits : r.Fits) {k : Nat} (hk : k < r.length) :
    r.Contains (r.first + BitVec.ofNat 64 k) := by
  have hlt : r.first.toNat + k < 2 ^ 64 := by
    unfold Fits at hfits
    omega
  unfold Contains
  rw [toNat_add hlt]
  omega

/-- Part of a range. -/
theorem contains_of_add {a : BitVec 64} {start n total : Nat}
    (hfits : (⟨a, total⟩ : ByteRange).Fits)
    (hin : start + n ≤ total) {x : BitVec 64}
    (hx : (⟨a + BitVec.ofNat 64 start, n⟩ : ByteRange).Contains x) :
    (⟨a, total⟩ : ByteRange).Contains x := by
  unfold Contains Fits at *
  simp only at *
  rw [BitVec.toNat_add, BitVec.toNat_ofNat] at hx
  omega

end ByteRange

namespace ByteMemory

/-- The little-endian number in `n` bytes from `a` on. -/
def littleEndian (memory : ByteMemory) (a : BitVec 64) : Nat → Nat
  | 0 => 0
  | n + 1 => (memory a).toNat + 256 * littleEndian memory (a + 1) n

/-- The unsigned number of `n` bytes at the address `a`. -/
def load (memory : ByteMemory) (n : Nat) (a : BitVec 64) : BitVec (8 * n) :=
  BitVec.ofNat (8 * n) (littleEndian memory a n)

/-- `length` bytes copied from `source` to `destination`. -/
def copy (destination source : BitVec 64) (length : Nat) (memory : ByteMemory) : ByteMemory :=
  fun x => if (⟨destination, length⟩ : ByteRange).Contains x
    then memory (source + (x - destination)) else memory x

/-- `length` bytes from `buffer` on set to `value`. -/
def fill (buffer : BitVec 64) (length : Nat) (value : BitVec 8) (memory : ByteMemory) :
    ByteMemory :=
  fun x => if (⟨buffer, length⟩ : ByteRange).Contains x then value else memory x

variable {memory memory' : ByteMemory}

/-- The address of a byte behind the first one. -/
theorem succ_add_ofNat (a : BitVec 64) (k : Nat) :
    a + 1 + BitVec.ofNat 64 k = a + BitVec.ofNat 64 (k + 1) := by
  rw [Nat.add_comm k 1, BitVec.ofNat_add, ← BitVec.add_assoc]
  rfl

/-- A number depends on its own bytes only: two memories that agree on `n` bytes hold the same
number there. -/
theorem littleEndian_congr {a b : BitVec 64} {n : Nat}
    (h : ∀ k < n, memory (a + BitVec.ofNat 64 k) = memory' (b + BitVec.ofNat 64 k)) :
    littleEndian memory a n = littleEndian memory' b n := by
  induction n generalizing a b with
  | zero => rfl
  | succ n ih =>
      have hfirst : memory a = memory' b := by simpa using h 0 (Nat.succ_pos n)
      have hrest : ∀ k < n, memory (a + 1 + BitVec.ofNat 64 k)
          = memory' (b + 1 + BitVec.ofNat 64 k) := by
        intro k hk
        rw [succ_add_ofNat, succ_add_ofNat]
        exact h (k + 1) (Nat.succ_lt_succ hk)
      rw [littleEndian, littleEndian, hfirst, ih hrest]

/-- A load depends on the bytes it reads. -/
theorem load_congr {a : BitVec 64} {n : Nat} (hfits : (⟨a, n⟩ : ByteRange).Fits)
    (h : ∀ x, (⟨a, n⟩ : ByteRange).Contains x → memory x = memory' x) :
    memory.load n a = memory'.load n a := by
  unfold load
  rw [littleEndian_congr fun k hk => h _ (ByteRange.contains_add hfits hk)]

/-- The value of `n` bytes is below `256 ^ n`, so it fits in a word of that many bytes. -/
theorem littleEndian_lt (memory : ByteMemory) (a : BitVec 64) (n : Nat) :
    littleEndian memory a n < 256 ^ n := by
  induction n generalizing a with
  | zero => exact Nat.one_pos
  | succ n ih =>
      have hbyte := (memory a).isLt
      have hrest := ih (a + 1)
      rw [littleEndian, Nat.pow_succ]
      omega

/-- **A number has one sequence of bytes**: equal values come from equal bytes, by induction on
their number, the lowest byte being the remainder. -/
theorem eq_of_littleEndian_eq {a b : BitVec 64} {n : Nat}
    (h : littleEndian memory a n = littleEndian memory' b n) :
    ∀ k < n, memory (a + BitVec.ofNat 64 k) = memory' (b + BitVec.ofNat 64 k) := by
  induction n generalizing a b with
  | zero => exact fun k hk => absurd hk (Nat.not_lt_zero k)
  | succ n ih =>
      have hbyte := (memory a).isLt
      have hbyte' := (memory' b).isLt
      rw [littleEndian, littleEndian] at h
      have hfirst : memory a = memory' b := BitVec.eq_of_toNat_eq (by omega)
      have hrest : littleEndian memory (a + 1) n = littleEndian memory' (b + 1) n := by omega
      intro k hk
      cases k with
      | zero => simpa using hfirst
      | succ k =>
          have hnext := ih hrest k (Nat.lt_of_succ_lt_succ hk)
          rwa [succ_add_ofNat, succ_add_ofNat] at hnext

/-- **Two numbers are equal** if and only if their bytes are, wherever in the two memories they
lie. -/
theorem load_eq_iff {a b : BitVec 64} {n : Nat} : memory.load n a = memory'.load n b ↔
    ∀ k < n, memory (a + BitVec.ofNat 64 k) = memory' (b + BitVec.ofNat 64 k) := by
  have hsize : 256 ^ n = 2 ^ (8 * n) := by rw [Nat.pow_mul]
  have hlt := littleEndian_lt memory a n
  have hlt' := littleEndian_lt memory' b n
  rw [hsize] at hlt hlt'
  constructor
  · intro h
    apply eq_of_littleEndian_eq
    have htoNat := congrArg BitVec.toNat h
    rwa [load, load, BitVec.toNat_ofNat, BitVec.toNat_ofNat, Nat.mod_eq_of_lt hlt,
      Nat.mod_eq_of_lt hlt'] at htoNat
  · intro h
    rw [load, load, littleEndian_congr h]

/-- What a copy puts at its destination. -/
theorem copy_at {destination source : BitVec 64} {length k : Nat}
    (hfits : (⟨destination, length⟩ : ByteRange).Fits) (hk : k < length) :
    copy destination source length memory (destination + BitVec.ofNat 64 k)
      = memory (source + BitVec.ofNat 64 k) := by
  have hin := ByteRange.contains_add hfits hk
  unfold copy
  rw [if_pos hin, BitVec.add_comm destination, BitVec.add_sub_cancel]

/-- A copy leaves what is outside its destination. -/
theorem copy_frame {destination source : BitVec 64} {length : Nat} {x : BitVec 64}
    (h : ¬ (⟨destination, length⟩ : ByteRange).Contains x) :
    copy destination source length memory x = memory x := if_neg h

/-- The bytes of the range have the value that was filled in. -/
theorem fill_at {buffer : BitVec 64} {length : Nat} {value : BitVec 8} {x : BitVec 64}
    (h : (⟨buffer, length⟩ : ByteRange).Contains x) :
    fill buffer length value memory x = value := if_pos h

/-- Outside the range a fill changes nothing. -/
theorem fill_frame {buffer : BitVec 64} {length : Nat} {value : BitVec 8} {x : BitVec 64}
    (h : ¬ (⟨buffer, length⟩ : ByteRange).Contains x) :
    fill buffer length value memory x = memory x := if_neg h

end ByteMemory

end Mikanos
