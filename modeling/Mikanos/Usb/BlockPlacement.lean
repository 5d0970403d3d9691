import Mikanos.Usb.Memory

/-!
# Where `AllocMem` puts a block

The address of a block in unbounded arithmetic (`blockAt`), and the machine's
computation of it.  The two agree as long as the addresses of the computation fit 64 bits
(`place_blockAt_of_lt`); `Ceil` itself is rounding up modulo `2 ^ 64` (`ceil_toNat_mod`),
and leaves exactly the multiples alone (`ceil_eq_self_iff`).
-/

namespace Mikanos.Usb

/-! ## Where a block is placed -/

/-- `x` after the alignment. -/
def alignedAt (x alignment : Nat) : Nat :=
  if 0 < alignment then Align.roundUp x alignment else x

/-- The address of a block that is asked for when `alloc_ptr` is `x`. -/
def blockAt (x size alignment boundary : Nat) : Nat :=
  if 0 < boundary ∧ Align.roundUp (alignedAt x alignment) boundary < alignedAt x alignment + size
  then Align.roundUp (alignedAt x alignment) boundary
  else alignedAt x alignment

/-- `alloc_ptr` is `x`, in the pool `m`. -/
structure Pool.At (p : Pool) (m : MemoryPool) (x : Nat) : Prop where
  memoryPool : p.memoryPool = m
  allocPtr : p.allocPtr.toNat = x

/-- What `AllocMem` does at `x`: it returns null when the block would end behind the pool,
and leaves `alloc_ptr` at the block or behind it. -/
inductive Allocates (m : MemoryPool) (x size alignment boundary : Nat) (result : Addr × Pool) : Prop
  | full (hfull : m.limit < blockAt x size alignment boundary + size)
      (hnull : result.1 = nullptr)
      (hat : result.2.At m (blockAt x size alignment boundary))
  | block (hfits : blockAt x size alignment boundary + size ≤ m.limit)
      (hne : result.1 ≠ nullptr) (haddr : result.1.toNat = blockAt x size alignment boundary)
      (hat : result.2.At m (blockAt x size alignment boundary + size))

/-- Where `AllocMem` places a block, in natural numbers: as long as nothing wraps, the placement
in 64 bits is this one. -/
theorem place_blockAt {p : Pool} {size : BitVec 64} {alignment boundary : BitVec 32}
    (ha : PowerOrZero alignment) (hb : PowerOrZero boundary)
    (hfit : p.allocPtr.toNat + alignment.toNat + boundary.toNat + size.toNat < 2 ^ 64) :
    (p.place size alignment boundary).toNat =
      blockAt p.allocPtr.toNat size.toNat alignment.toNat boundary.toNat :=
  place_toNat ha hb hfit

/-- A block lies behind `alloc_ptr`: neither of the two roundings leads below the address it
starts from. -/
theorem le_blockAt (x size alignment boundary : Nat) : x ≤ blockAt x size alignment boundary := by
  have haligned : x ≤ alignedAt x alignment := by
    unfold alignedAt
    split
    · exact Align.le_roundUp (by assumption)
    · exact Nat.le_refl x
  unfold blockAt
  split
  · rename_i h
    exact Nat.le_trans haligned (Align.le_roundUp h.1)
  · exact haligned

/-- **One call of `AllocMem`** in terms of where `alloc_ptr` is: the block is at `blockAt`, or
the call is refused since it would not fit in the pool. -/
theorem allocMem_allocates {p : Pool} {m : MemoryPool} {x : Nat} (h : p.At m x)
    {size : BitVec 64} {alignment boundary : BitVec 32} {s a b : Nat} (hs : size.toNat = s)
    (ha : alignment.toNat = a) (hb : boundary.toNat = b) (hpa : PowerOrZero alignment)
    (hpb : PowerOrZero boundary) (hx : m.addr.toNat ≤ x) (hfit : x + a + b + s < 2 ^ 64) :
    Allocates m x s a b (p.allocMem size alignment boundary) := by
  obtain ⟨rfl, rfl⟩ := h
  subst hs ha hb
  have hplace := place_blockAt hpa hpb hfit
  rcases allocMem_cases hpa hpb hfit with ⟨hout, hresult⟩ | ⟨hin, hend, hresult⟩
  · rw [hplace] at hout
    rw [hresult]
    exact .full hout rfl ⟨rfl, hplace⟩
  · have hlow : p.memoryPool.addr.toNat ≤ (p.place size alignment boundary).toNat :=
      Nat.le_trans hx (place_bounds hpa hpb hfit).1
    have hne : p.place size alignment boundary ≠ nullptr := by
      intro hnull
      rw [hnull] at hlow
      exact absurd p.memoryPool.addr_pos (Nat.not_lt.mpr hlow)
    rw [hplace] at hin hend
    rw [hresult]
    exact .block hin hne hplace ⟨rfl, hend⟩

/-- A request that is aligned, and far enough from the end of its page, is placed at `alloc_ptr`
itself, as it crosses no boundary of 64 KiB. -/
theorem blockAt_page {z d size : Nat} (hz : 4096 ∣ z) (hd : 64 ∣ d) (hroom : d + size ≤ 4096) :
    blockAt (z + d) size 64 65536 = z + d := by
  have h64 : 64 ∣ z + d := Nat.dvd_add ((by decide : 64 ∣ 4096).trans hz) hd
  have hle : z + d ≤ Align.roundUp (z + d) 65536 := Align.le_roundUp (by decide)
  have hdvd : 65536 ∣ Align.roundUp (z + d) 65536 := Align.dvd_roundUp _ _
  have haligned : alignedAt (z + d) 64 = z + d := Align.roundUp_of_dvd (by decide) h64
  unfold blockAt
  rw [haligned]
  split
  · omega
  · rfl

/-- A request for a page is placed at the next page. -/
theorem blockAt_aligned (x : Nat) : blockAt x 4096 4096 4096 = Align.roundUp x 4096 := by
  have haligned : alignedAt x 4096 = Align.roundUp x 4096 := rfl
  unfold blockAt
  rw [haligned, Align.roundUp_of_dvd (by decide) (Align.dvd_roundUp x 4096)]
  split
  · rfl
  · rfl

/-! ## The machine's computation -/

/-- The alignments of the machine divide the address space. -/
theorem dvd_space {a : BitVec 32} {i : Nat} (ha : a.toNat = 2 ^ i) : a.toNat ∣ 2 ^ 64 := by
  have hlt : a.toNat < 2 ^ 32 := a.isLt
  rw [ha] at hlt ⊢
  have hi : i < 32 := (Nat.pow_lt_pow_iff_right (by decide)).mp hlt
  exact Nat.pow_dvd_pow 2 (by omega)

/-- Rounding an address up stays within the address space, or ends right behind it. -/
theorem roundUp_le_space (x : Addr) {a : BitVec 32} {i : Nat} (ha : a.toNat = 2 ^ i) :
    Align.roundUp x.toNat a.toNat ≤ 2 ^ 64 :=
  Align.roundUp_least (Nat.le_of_lt x.isLt) (dvd_space ha)

/-- **`Ceil` on any address.**  What does not fit 64 bits is rounded to `2 ^ 64`, which
the machine takes for 0. -/
theorem ceil_toNat_mod (x : Addr) {a : BitVec 32} {i : Nat} (ha : a.toNat = 2 ^ i) :
    (ceil x a).toNat = Align.roundUp x.toNat a.toNat % 2 ^ 64 := by
  have hpos : 0 < a.toNat := ha ▸ Nat.two_pow_pos i
  have hlt : a.toNat < 2 ^ 32 := a.isLt
  have hx := x.isLt
  by_cases hfit : x.toNat + a.toNat ≤ 2 ^ 64
  · have hup := Align.roundUp_lt (a := x.toNat) hpos
    rw [ceil_toNat ha hfit, Nat.mod_eq_of_lt (by omega)]
  · have hsum : (x + a.setWidth 64 - 1).toNat = x.toNat + a.toNat - 1 - 2 ^ 64 := by
      rw [toNat_ceil_sum]
      omega
    have hzero : (ceil x a).toNat = 0 := by
      rw [ceil, Align.and_not_toNat _ _ (ceil_mask ha), hsum, ← ha, Nat.div_eq_of_lt (by omega),
        Nat.zero_mul]
    have hwhole := dvd_space ha
    have hle := roundUp_le_space x ha
    have hge : 2 ^ 64 ≤ Align.roundUp x.toNat a.toNat := by
      obtain ⟨c, hc⟩ := hwhole
      obtain ⟨k, hk⟩ := Align.dvd_roundUp x.toNat a.toNat
      have hup := Align.le_roundUp (a := x.toNat) hpos
      rw [hc, hk]
      refine Nat.mul_le_mul_left _ (Nat.le_of_lt_succ (Nat.lt_of_mul_lt_mul_left (a := a.toNat) ?_))
      rw [← hc, Nat.mul_succ, ← hk]
      omega
    rw [hzero, Nat.le_antisymm hle hge, Nat.mod_self]

/-- `Ceil` leaves the multiples of the alignment alone, and nothing else; this is true of the
wrapping arithmetic as well. -/
theorem ceil_eq_self_iff (x : Addr) {a : BitVec 32} {i : Nat} (ha : a.toNat = 2 ^ i) :
    ceil x a = x ↔ a.toNat ∣ x.toNat := by
  constructor
  · intro h
    have hdvd := dvd_ceil x ha
    rw [h, ← ha] at hdvd
    exact hdvd
  · intro h
    apply BitVec.eq_of_toNat_eq
    rw [ceil_toNat_mod x ha, Align.roundUp_of_dvd (ha ▸ Nat.two_pow_pos i) h]
    exact Nat.mod_eq_of_lt x.isLt

/-- The pointer after the alignment step, as the machine has it. -/
def Pool.alignedAddr (p : Pool) (alignment : BitVec 32) : Addr :=
  if 0 < alignment then ceil p.allocPtr alignment else p.allocPtr

/-- The two roundings of `AllocMem`, as one expression in the aligned pointer. -/
theorem place_eq (p : Pool) (size : BitVec 64) (alignment boundary : BitVec 32) :
    p.place size alignment boundary =
      if 0 < boundary ∧
          ceil (p.alignedAddr alignment) boundary < p.alignedAddr alignment + size
      then ceil (p.alignedAddr alignment) boundary else p.alignedAddr alignment := by
  rw [ite_and]
  rfl

/-- The test of the code for a constraint, on numbers. -/
theorem pos_iff_toNat (w : BitVec 32) : 0 < w ↔ 0 < w.toNat := BitVec.lt_def

/-- The first rounding in 64 bits may wrap, and then ends at 0. -/
theorem alignedAddr_toNat (p : Pool) {alignment : BitVec 32} (ha : PowerOrZero alignment) :
    (p.alignedAddr alignment).toNat = alignedAt p.allocPtr.toNat alignment.toNat % 2 ^ 64 := by
  unfold Pool.alignedAddr alignedAt
  by_cases hpos : 0 < alignment.toNat
  · obtain ⟨i, hi⟩ := ha.pow hpos
    rw [if_pos ((pos_iff_toNat _).mpr hpos), if_pos hpos, ceil_toNat_mod _ hi]
  · rw [if_neg fun h => hpos ((pos_iff_toNat _).mp h), if_neg hpos,
      Nat.mod_eq_of_lt p.allocPtr.isLt]

/-- A pointer whose alignment does not fit in 64 bits wraps to 0, and so does the place of the
block, which then is null. -/
theorem place_of_wrap {p : Pool} {size : BitVec 64} {alignment boundary : BitVec 32}
    (ha : PowerOrZero alignment) (hb : PowerOrZero boundary)
    (hwrap : 2 ^ 64 ≤ alignedAt p.allocPtr.toNat alignment.toNat) :
    p.place size alignment boundary = nullptr := by
  have hspace : alignedAt p.allocPtr.toNat alignment.toNat = 2 ^ 64 := by
    refine Nat.le_antisymm ?_ hwrap
    unfold alignedAt
    split
    · rename_i hpos
      obtain ⟨i, hi⟩ := ha.pow hpos
      exact roundUp_le_space p.allocPtr hi
    · exact Nat.le_of_lt p.allocPtr.isLt
  have hzero : p.alignedAddr alignment = nullptr := by
    apply BitVec.eq_of_toNat_eq
    rw [alignedAddr_toNat p ha, hspace, Nat.mod_self]
    rfl
  rw [place_eq, hzero]
  split
  · rename_i hcross
    obtain ⟨j, hj⟩ := hb.pow ((pos_iff_toNat _).mp hcross.1)
    exact (ceil_eq_self_iff nullptr hj).mpr (Nat.dvd_zero _)
  · rfl

/-- A boundary behind the address space is taken for 0. -/
theorem ceil_of_wrap {x : Addr} {a : BitVec 32} {i : Nat} (ha : a.toNat = 2 ^ i)
    (hwrap : 2 ^ 64 ≤ Align.roundUp x.toNat a.toNat) : ceil x a = nullptr := by
  apply BitVec.eq_of_toNat_eq
  rw [ceil_toNat_mod x ha, Nat.le_antisymm (roundUp_le_space x ha) hwrap, Nat.mod_self]
  rfl

/-- **The machine's placement** is `blockAt`, if the addresses that it computes on the way fit
in 64 bits. -/
theorem place_blockAt_of_lt {p : Pool} {size : BitVec 64} {alignment boundary : BitVec 32}
    (ha : PowerOrZero alignment) (hb : PowerOrZero boundary)
    (haligned : alignedAt p.allocPtr.toNat alignment.toNat < 2 ^ 64)
    (hup : 0 < boundary.toNat →
      Align.roundUp (alignedAt p.allocPtr.toNat alignment.toNat) boundary.toNat < 2 ^ 64)
    (hend : alignedAt p.allocPtr.toNat alignment.toNat + size.toNat < 2 ^ 64) :
    (p.place size alignment boundary).toNat =
      blockAt p.allocPtr.toNat size.toNat alignment.toNat boundary.toNat := by
  have hptr : (p.alignedAddr alignment).toNat = alignedAt p.allocPtr.toNat alignment.toNat :=
    (alignedAddr_toNat p ha).trans (Nat.mod_eq_of_lt haligned)
  have hsum : (p.alignedAddr alignment + size).toNat =
      alignedAt p.allocPtr.toNat alignment.toNat + size.toNat := by
    rw [BitVec.toNat_add, hptr]
    exact Nat.mod_eq_of_lt hend
  rw [place_eq]
  unfold blockAt
  by_cases hpos : 0 < boundary.toNat
  · obtain ⟨j, hj⟩ := hb.pow hpos
    have hceil : (ceil (p.alignedAddr alignment) boundary).toNat =
        Align.roundUp (alignedAt p.allocPtr.toNat alignment.toNat) boundary.toNat := by
      rw [ceil_toNat_mod _ hj, hptr]
      exact Nat.mod_eq_of_lt (hup hpos)
    have hpos' := (pos_iff_toNat _).mpr hpos
    by_cases hcross : Align.roundUp (alignedAt p.allocPtr.toNat alignment.toNat) boundary.toNat
        < alignedAt p.allocPtr.toNat alignment.toNat + size.toNat
    · rw [if_pos ⟨hpos', by rw [BitVec.lt_def, hceil, hsum]; exact hcross⟩, if_pos ⟨hpos, hcross⟩,
        hceil]
    · rw [if_neg fun h => hcross (by rw [← hceil, ← hsum]; exact h.2), if_neg fun h => hcross h.2,
        hptr]
  · rw [if_neg fun h => hpos ((pos_iff_toNat _).mp h.1), if_neg fun h => hpos h.1]
    exact hptr

/-- The constraints of the driver's requests. -/
theorem powerOrZero_zero : PowerOrZero 0 := Or.inl rfl

/-- A line of 64 bytes. -/
theorem powerOrZero_line : PowerOrZero 64 := Or.inr ⟨6, rfl⟩

/-- A page. -/
theorem powerOrZero_page : PowerOrZero 4096 := Or.inr ⟨12, rfl⟩

/-- A segment of 64 KiB. -/
theorem powerOrZero_segment : PowerOrZero (64 * 1024) := Or.inr ⟨16, rfl⟩

end Mikanos.Usb
