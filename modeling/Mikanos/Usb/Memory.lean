import Mikanos.Error
import Mikanos.Lib.Align
import Mathlib.Order.Bounds.Basic
import Mathlib.Order.CompletePartialOrder

/-!
# The USB driver's memory pool

`usb/memory.cpp` hands out blocks of one static array by moving a pointer
upwards; `FreeMem` does nothing.  Every DMA structure of the driver (rings,
contexts, scratchpad pages, device objects) lives in this pool, so what the
hardware needs of their addresses is what `AllocMem` guarantees here.

`AllocMem` rounds its pointer twice, first to the alignment and then, when the
block would otherwise reach past the next boundary, to that boundary.  Both are
powers of two, so one of them divides the other and the second rounding never
spoils the first (`roundUp_boundary_dvd`).  `place_isLeast` says what the two
roundings amount to: the lowest address that satisfies both constraints.
`PoolRun` records the blocks handed out by a sequence of calls, and `PoolRun.Inv`
is the invariant that keeps them apart.
-/

namespace Mikanos.Usb

/-- `kMemoryPoolSize`. -/
def kMemoryPoolSize : Nat := 4096 * 32

/-- The static array `memory_pool`: a C++ object, hence not at address null,
inside the address space, and declared `alignas(64)`. -/
structure MemoryPool where
  addr : Addr
  addr_pos : 0 < addr.toNat
  aligned : 64 ∣ addr.toNat
  fits : addr.toNat + kMemoryPoolSize < 2 ^ 64

/-- The address one past the pool. -/
def MemoryPool.limit (m : MemoryPool) : Nat := m.addr.toNat + kMemoryPoolSize

/-- The allocator's state: the pool and `alloc_ptr`. -/
structure Pool where
  memoryPool : MemoryPool
  allocPtr : Addr

/-- `alloc_ptr` before the first call. -/
def Pool.init (m : MemoryPool) : Pool := ⟨m, m.addr⟩

/-- `Ceil(value, alignment)` at `T = uintptr_t`. -/
def ceil (value : Addr) (alignment : BitVec 32) : Addr :=
  (value + alignment.setWidth 64 - 1) &&& ~~~((alignment - 1).setWidth 64)

/-- The value `AllocMem` gives `alloc_ptr` before it tests the pool's end. -/
def Pool.place (p : Pool) (size : BitVec 64) (alignment boundary : BitVec 32) : Addr :=
  let allocPtr := if 0 < alignment then ceil p.allocPtr alignment else p.allocPtr
  if 0 < boundary then
    let nextBoundary := ceil allocPtr boundary
    if nextBoundary < allocPtr + size then nextBoundary else allocPtr
  else allocPtr

/-- `AllocMem(size, alignment, boundary)`.  A failing call keeps the rounded
`alloc_ptr`. -/
def Pool.allocMem (p : Pool) (size : BitVec 64) (alignment boundary : BitVec 32) :
    Addr × Pool :=
  let allocPtr := p.place size alignment boundary
  if p.memoryPool.addr + BitVec.ofNat 64 kMemoryPoolSize < allocPtr + size then
    (nullptr, { p with allocPtr := allocPtr })
  else
    (allocPtr, { p with allocPtr := allocPtr + size })

/-- `AllocArray<T>(num_obj, alignment, boundary)` for a `T` of `sizeofT` bytes. -/
def Pool.allocArray (p : Pool) (sizeofT numObj : BitVec 64) (alignment boundary : BitVec 32) :
    Addr × Pool :=
  p.allocMem (sizeofT * numObj) alignment boundary

/-- `FreeMem(p)`. -/
def Pool.freeMem (p : Pool) (_ : Addr) : Pool := p

/-! ## What one call computes -/

/-- A constraint argument is `0` (no constraint) or a power of two. -/
def PowerOrZero (w : BitVec 32) : Prop := w = 0 ∨ ∃ i, w.toNat = 2 ^ i

/-- The block `[a, a + size)` straddles no multiple of `boundary`. -/
def NoCross (a size boundary : Nat) : Prop :=
  ∀ k, ¬ (a < boundary * k ∧ boundary * k < a + size)

/-- What an address must satisfy to be handed out when `alloc_ptr` is `prev`.
A block longer than the boundary must start on one. -/
def Admissible (prev size alignment boundary a : Nat) : Prop :=
  prev ≤ a ∧ (0 < alignment → alignment ∣ a) ∧
    (0 < boundary → if size ≤ boundary then NoCross a size boundary else boundary ∣ a)

/-- The mask of `Ceil` before its complement: the low bits of a power of two. -/
theorem ceil_mask {a : BitVec 32} {i : Nat} (ha : a.toNat = 2 ^ i) :
    ((a - 1).setWidth 64 : Addr).toNat = 2 ^ i - 1 := by
  have hpos : 0 < a.toNat := ha ▸ Nat.two_pow_pos i
  have hlt : a.toNat < 2 ^ 32 := a.isLt
  have hone : 1 ≤ a := BitVec.le_def.mpr hpos
  rw [BitVec.toNat_setWidth, BitVec.toNat_sub_of_le hone, ← ha]
  exact Nat.mod_eq_of_lt (by show a.toNat - 1 < 2 ^ 64; omega)

/-- `Ceil` always returns a multiple, even where its sum wraps. -/
theorem dvd_ceil (x : Addr) {a : BitVec 32} {i : Nat} (ha : a.toNat = 2 ^ i) :
    2 ^ i ∣ (ceil x a).toNat := by
  rw [ceil, Align.and_not_toNat _ _ (ceil_mask ha)]
  exact Nat.dvd_mul_left _ _

/-- The sum that `Ceil` rounds down, before it is reduced. -/
theorem toNat_ceil_sum (x : Addr) (a : BitVec 32) : (x + a.setWidth 64 - 1).toNat =
    (2 ^ 64 - 1 + (x.toNat + a.toNat) % 2 ^ 64) % 2 ^ 64 := by
  have hlt : a.toNat < 2 ^ 32 := a.isLt
  have hw : (a.setWidth 64 : Addr).toNat = a.toNat := by
    rw [BitVec.toNat_setWidth]
    exact Nat.mod_eq_of_lt (by omega)
  rw [BitVec.toNat_sub, BitVec.toNat_add, hw]
  rfl

/-- `Ceil` rounds up, as long as the sum fits the address space. -/
theorem ceil_toNat {x : Addr} {a : BitVec 32} {i : Nat} (ha : a.toNat = 2 ^ i)
    (hfit : x.toNat + a.toNat ≤ 2 ^ 64) : (ceil x a).toNat = Align.roundUp x.toNat a.toNat := by
  have hpos : 0 < a.toNat := ha ▸ Nat.two_pow_pos i
  have hlt : a.toNat < 2 ^ 32 := a.isLt
  have hsum : (x + a.setWidth 64 - 1).toNat = x.toNat + a.toNat - 1 := by
    rw [toNat_ceil_sum]
    omega
  rw [ceil, Align.and_not_toNat _ _ (ceil_mask ha), hsum, Align.roundUp, ha]

/-- A call returns null or the address that `place` chose, whatever its arguments, and in both
cases says where `alloc_ptr` is left. -/
theorem allocMem_null_or_place (p : Pool) (size : BitVec 64) (alignment boundary : BitVec 32) :
    p.allocMem size alignment boundary
        = (nullptr, { p with allocPtr := p.place size alignment boundary }) ∨
      p.allocMem size alignment boundary
        = (p.place size alignment boundary,
            { p with allocPtr := p.place size alignment boundary + size }) := by
  rw [Pool.allocMem]
  by_cases h : p.memoryPool.addr + BitVec.ofNat 64 kMemoryPoolSize
      < p.place size alignment boundary + size
  · rw [if_pos h]
    exact Or.inl rfl
  · rw [if_neg h]
    exact Or.inr rfl

section OneCall

variable {p : Pool} {size : BitVec 64} {alignment boundary : BitVec 32}

/-- The pointer after the alignment step. -/
def Pool.alignedPtr (p : Pool) (alignment : BitVec 32) : Nat :=
  if 0 < alignment.toNat then Align.roundUp p.allocPtr.toNat alignment.toNat
  else p.allocPtr.toNat

/-- The aligned pointer is not below the pointer. -/
theorem alignedPtr_ge : p.allocPtr.toNat ≤ p.alignedPtr alignment := by
  unfold Pool.alignedPtr
  split
  · exact Align.le_roundUp (by assumption)
  · exact Nat.le_refl _

/-- Alignment costs at most one step. -/
theorem alignedPtr_le : p.alignedPtr alignment ≤ p.allocPtr.toNat + alignment.toNat := by
  unfold Pool.alignedPtr
  split
  · exact Nat.le_of_lt (Align.roundUp_lt (by assumption))
  · exact Nat.le_add_right _ _

/-- The pointer before the block is a multiple of the alignment, if the caller asks for one. -/
theorem dvd_alignedPtr (h : 0 < alignment.toNat) :
    alignment.toNat ∣ p.alignedPtr alignment := by
  rw [Pool.alignedPtr, if_pos h]
  exact Align.dvd_roundUp _ _

/-- **It is the first such address**: any aligned one from the pointer on is at least as large.
-/
theorem alignedPtr_least {b : Nat} (hb : p.allocPtr.toNat ≤ b)
    (hdvd : 0 < alignment.toNat → alignment.toNat ∣ b) : p.alignedPtr alignment ≤ b := by
  unfold Pool.alignedPtr
  split
  · exact Align.roundUp_least hb (hdvd (by assumption))
  · exact hb

/-- A positive constraint that is `0` or a power of two is a power of two. -/
theorem PowerOrZero.pow {w : BitVec 32} (h : PowerOrZero w) (hpos : 0 < w.toNat) :
    ∃ i, w.toNat = 2 ^ i := by
  rcases h with rfl | h
  · simp at hpos
  · exact h

/-- The machine's placement in unbounded arithmetic: the aligned pointer, or the next boundary
if the block would cross it. -/
theorem place_toNat (ha : PowerOrZero alignment) (hb : PowerOrZero boundary)
    (hfit : p.allocPtr.toNat + alignment.toNat + boundary.toNat + size.toNat < 2 ^ 64) :
    (p.place size alignment boundary).toNat =
      if 0 < boundary.toNat ∧
          Align.roundUp (p.alignedPtr alignment) boundary.toNat
            < p.alignedPtr alignment + size.toNat
      then Align.roundUp (p.alignedPtr alignment) boundary.toNat
      else p.alignedPtr alignment := by
  have hzero : ∀ w : BitVec 32, 0 < w ↔ 0 < w.toNat := fun w => by simp [BitVec.lt_def]
  let ptr : Addr := if 0 < alignment then ceil p.allocPtr alignment else p.allocPtr
  have hptr : ptr.toNat = p.alignedPtr alignment := by
    by_cases hpos : 0 < alignment.toNat
    · obtain ⟨i, hi⟩ := ha.pow hpos
      simp only [ptr, (hzero _).mpr hpos, if_true, Pool.alignedPtr, hpos]
      exact ceil_toNat hi (by omega)
    · simp only [ptr, hzero, hpos, if_false, Pool.alignedPtr]
  have hle : p.alignedPtr alignment ≤ p.allocPtr.toNat + alignment.toNat := alignedPtr_le
  have hadd : (ptr + size).toNat = p.alignedPtr alignment + size.toNat := by
    rw [BitVec.toNat_add, hptr]
    exact Nat.mod_eq_of_lt (by omega)
  change (if 0 < boundary then
      if ceil ptr boundary < ptr + size then ceil ptr boundary else ptr else ptr).toNat = _
  by_cases hpos : 0 < boundary.toNat
  · obtain ⟨j, hj⟩ := hb.pow hpos
    have hceil : (ceil ptr boundary).toNat
        = Align.roundUp (p.alignedPtr alignment) boundary.toNat := by
      rw [ceil_toNat hj (by omega), hptr]
    rw [if_pos ((hzero _).mpr hpos)]
    by_cases hcross : Align.roundUp (p.alignedPtr alignment) boundary.toNat
        < p.alignedPtr alignment + size.toNat
    · rw [if_pos (by rw [BitVec.lt_def, hceil, hadd]; exact hcross), if_pos ⟨hpos, hcross⟩, hceil]
    · rw [if_neg (by rw [BitVec.lt_def, hceil, hadd]; exact hcross),
        if_neg (fun h => hcross h.2), hptr]
  · rw [if_neg (fun h => hpos ((hzero _).mp h)), if_neg (fun h => hpos h.1), hptr]

/-- **The second rounding keeps the alignment.**  Either the boundary is a
multiple of the alignment, or the aligned pointer is already on a boundary. -/
theorem roundUp_boundary_dvd (ha : PowerOrZero alignment) (hb : PowerOrZero boundary)
    (hapos : 0 < alignment.toNat) (hbpos : 0 < boundary.toNat) :
    alignment.toNat ∣ Align.roundUp (p.alignedPtr alignment) boundary.toNat := by
  rcases Align.pow_two_dvd_or_dvd (ha.pow hapos) (hb.pow hbpos) with h | h
  · exact h.trans (Align.dvd_roundUp _ _)
  · have hptr : alignment.toNat ∣ p.alignedPtr alignment := dvd_alignedPtr hapos
    rw [Align.roundUp_of_dvd hbpos (h.trans hptr)]
    exact hptr

/-- A block no longer than the boundary, placed on a multiple of it, crosses none. -/
theorem noCross_of_dvd {a size b : Nat} (hdvd : b ∣ a) (hle : size ≤ b) : NoCross a size b := by
  obtain ⟨c, rfl⟩ := hdvd
  rintro k ⟨hlt, hgt⟩
  have hck : c < k := Nat.lt_of_mul_lt_mul_left hlt
  have hstep : b * (c + 1) ≤ b * k := Nat.mul_le_mul_left b hck
  rw [Nat.mul_succ] at hstep
  omega

/-- A block that ends at or before the next boundary crosses none. -/
theorem noCross_of_le {a size b : Nat} (hend : a + size ≤ Align.roundUp a b) :
    NoCross a size b := by
  rintro k ⟨hlt, hgt⟩
  have hle : Align.roundUp a b ≤ b * k := Align.roundUp_least (Nat.le_of_lt hlt) ⟨k, rfl⟩
  omega

/-- **The chosen address is the lowest admissible one**: below the aligned pointer none is
aligned, and between it and the next boundary every block would cross. -/
theorem place_isLeast (ha : PowerOrZero alignment) (hb : PowerOrZero boundary)
    (hfit : p.allocPtr.toNat + alignment.toNat + boundary.toNat + size.toNat < 2 ^ 64) :
    IsLeast {a | Admissible p.allocPtr.toNat size.toNat alignment.toNat boundary.toNat a}
      (p.place size alignment boundary).toNat := by
  have hge : p.allocPtr.toNat ≤ p.alignedPtr alignment := alignedPtr_ge
  rw [place_toNat ha hb hfit]
  split
  · -- The block would reach past the next boundary: it is moved there.
    rename_i h
    obtain ⟨hbpos, hcross⟩ := h
    have hup := Align.le_roundUp (a := p.alignedPtr alignment) hbpos
    have hdvd := Align.dvd_roundUp (p.alignedPtr alignment) boundary.toNat
    refine ⟨⟨by omega, fun hapos => roundUp_boundary_dvd ha hb hapos hbpos, fun _ => ?_⟩, ?_⟩
    · split
      · exact noCross_of_dvd hdvd (by assumption)
      · exact hdvd
    · rintro q ⟨hq, hqa, hqb⟩
      have hptrq : p.alignedPtr alignment ≤ q := alignedPtr_least hq hqa
      by_contra hlt
      obtain ⟨k, hk⟩ := hdvd
      have hqb' := hqb hbpos
      split at hqb'
      · exact hqb' k ⟨by omega, by omega⟩
      · exact hlt (Align.roundUp_least hptrq hqb')
  · -- The aligned pointer already fits.
    rename_i h
    refine ⟨⟨hge, dvd_alignedPtr, fun hbpos => ?_⟩, ?_⟩
    · have hend : p.alignedPtr alignment + size.toNat
          ≤ Align.roundUp (p.alignedPtr alignment) boundary.toNat :=
        Nat.le_of_not_lt fun hlt => h ⟨hbpos, hlt⟩
      have hup := Align.roundUp_lt (a := p.alignedPtr alignment) hbpos
      rw [if_pos (by omega)]
      exact noCross_of_le hend
    · rintro q ⟨hq, hqa, -⟩
      exact alignedPtr_least hq hqa

/-- The placement moves `alloc_ptr` up, by no more than both constraints together, so the
padding of a block is bounded. -/
theorem place_bounds (ha : PowerOrZero alignment) (hb : PowerOrZero boundary)
    (hfit : p.allocPtr.toNat + alignment.toNat + boundary.toNat + size.toNat < 2 ^ 64) :
    p.allocPtr.toNat ≤ (p.place size alignment boundary).toNat ∧
      (p.place size alignment boundary).toNat
        ≤ p.allocPtr.toNat + alignment.toNat + boundary.toNat := by
  refine ⟨(place_isLeast ha hb hfit).1.1, ?_⟩
  have hle : p.alignedPtr alignment ≤ p.allocPtr.toNat + alignment.toNat := alignedPtr_le
  rw [place_toNat ha hb hfit]
  split
  · rename_i h
    have hup := Align.roundUp_lt (a := p.alignedPtr alignment) h.1
    omega
  · omega

/-- **One call of `AllocMem`.**  It fails exactly when the block at the chosen
address would end beyond the pool, and otherwise returns that address and
leaves `alloc_ptr` behind the block. -/
theorem allocMem_cases (ha : PowerOrZero alignment) (hb : PowerOrZero boundary)
    (hfit : p.allocPtr.toNat + alignment.toNat + boundary.toNat + size.toNat < 2 ^ 64) :
    (p.memoryPool.limit < (p.place size alignment boundary).toNat + size.toNat ∧
      p.allocMem size alignment boundary
        = (nullptr, { p with allocPtr := p.place size alignment boundary })) ∨
    ((p.place size alignment boundary).toNat + size.toNat ≤ p.memoryPool.limit ∧
      (p.place size alignment boundary + size).toNat
        = (p.place size alignment boundary).toNat + size.toNat ∧
      p.allocMem size alignment boundary
        = (p.place size alignment boundary,
            { p with allocPtr := p.place size alignment boundary + size })) := by
  have hbnd := place_bounds ha hb hfit
  have hfits := p.memoryPool.fits
  have hend : (p.place size alignment boundary + size).toNat
      = (p.place size alignment boundary).toNat + size.toNat := by
    rw [BitVec.toNat_add]
    exact Nat.mod_eq_of_lt (by omega)
  have hlimit : (p.memoryPool.addr + BitVec.ofNat 64 kMemoryPoolSize).toNat
      = p.memoryPool.limit := by
    rw [BitVec.toNat_add, BitVec.toNat_ofNat, MemoryPool.limit]
    unfold kMemoryPoolSize at *
    omega
  by_cases hlt : p.memoryPool.limit < (p.place size alignment boundary).toNat + size.toNat
  · refine Or.inl ⟨hlt, ?_⟩
    rw [Pool.allocMem, if_pos (by rw [BitVec.lt_def, hlimit, hend]; exact hlt)]
  · refine Or.inr ⟨Nat.le_of_not_lt hlt, hend, ?_⟩
    rw [Pool.allocMem, if_neg (by rw [BitVec.lt_def, hlimit, hend]; exact hlt)]

/-- A block asked for on a power of two no larger than the boundary starts on
one whatever the other arguments are. -/
theorem dvd_allocMem {i j : Nat} (ha : alignment.toNat = 2 ^ i) (hb : boundary.toNat = 2 ^ j)
    (hij : i ≤ j) : 2 ^ i ∣ (p.allocMem size alignment boundary).1.toNat := by
  have hplace : 2 ^ i ∣ (p.place size alignment boundary).toNat := by
    have hapos : 0 < alignment := BitVec.lt_def.mpr (ha ▸ Nat.two_pow_pos i)
    have hbpos : 0 < boundary := BitVec.lt_def.mpr (hb ▸ Nat.two_pow_pos j)
    have hup : ∀ x, 2 ^ i ∣ (ceil x boundary).toNat :=
      fun x => (Nat.pow_dvd_pow 2 hij).trans (dvd_ceil x hb)
    unfold Pool.place
    rw [if_pos hapos, if_pos hbpos]
    dsimp only
    split
    · exact hup _
    · exact dvd_ceil _ ha
  rcases allocMem_null_or_place p size alignment boundary with h | h
  · rw [h]
    exact Nat.dvd_zero _
  · rw [h]
    exact hplace

end OneCall

/-! ## Requests in a row -/

/-- The arguments of one `AllocMem`. -/
structure MemRequest where
  size : BitVec 64
  alignment : BitVec 32
  boundary : BitVec 32

/-- One request. -/
def Pool.serve (p : Pool) (r : MemRequest) : Addr × Pool :=
  p.allocMem r.size r.alignment r.boundary

/-- `AllocArray` asks for the product of size and number, in 64 bits. -/
theorem Pool.allocArray_eq_serve (p : Pool) (sizeofT numObj : BitVec 64)
    (alignment boundary : BitVec 32) :
    p.allocArray sizeofT numObj alignment boundary =
      p.serve ⟨sizeofT * numObj, alignment, boundary⟩ := rfl

/-- The pool after requests that are made whatever becomes of them. -/
def Pool.serveAll (p : Pool) (rs : List MemRequest) : Pool :=
  rs.foldl (fun p r => (p.serve r).2) p

/-- None of the requests gets null. -/
def Pool.Serves : Pool → List MemRequest → Prop
  | _, [] => True
  | p, r :: rs => (p.serve r).1 ≠ nullptr ∧ (p.serve r).2.Serves rs

instance Pool.decidableServes : ∀ (rs : List MemRequest) (p : Pool), Decidable (p.Serves rs)
  | [], _ => isTrue trivial
  | r :: rs, p =>
      have := Pool.decidableServes rs (p.serve r).2
      inferInstanceAs (Decidable (_ ∧ _))

theorem Pool.serveAll_nil (p : Pool) : p.serveAll [] = p := rfl

/-- Requests are served one after the other, -/
theorem Pool.serveAll_cons (p : Pool) (r : MemRequest) (rs : List MemRequest) :
    p.serveAll (r :: rs) = (p.serve r).2.serveAll rs := rfl

/-- and a list of them in pieces. -/
theorem Pool.serveAll_append (p : Pool) (rs ss : List MemRequest) :
    p.serveAll (rs ++ ss) = (p.serveAll rs).serveAll ss :=
  List.foldl_append

/-! ## Sequences of calls -/

/-- One call of the allocator's interface. -/
inductive MemCall where
  | allocMem (size : BitVec 64) (alignment boundary : BitVec 32)
  | freeMem (p : Addr)

/-- A block handed out by `AllocMem`. -/
structure Block where
  addr : Nat
  size : Nat

/-- The bytes of a block. -/
def Block.bytes (b : Block) : Set Nat := Set.Ico b.addr (b.addr + b.size)

/-- The allocator together with the blocks it has handed out. -/
structure PoolRun where
  pool : Pool
  blocks : List Block

/-- Before the first call. -/
def PoolRun.init (m : MemoryPool) : PoolRun := ⟨Pool.init m, []⟩

/-- Take over the result of an `AllocMem(size, …)`, recording a non-null block. -/
def PoolRun.record (r : PoolRun) (size : BitVec 64) (result : Addr × Pool) : PoolRun :=
  ⟨result.2, if result.1 = nullptr then r.blocks else r.blocks ++ [⟨result.1.toNat, size.toNat⟩]⟩

/-- One call. -/
def PoolRun.step (r : PoolRun) : MemCall → PoolRun
  | .allocMem size alignment boundary =>
      r.record size (r.pool.allocMem size alignment boundary)
  | .freeMem a => { r with pool := r.pool.freeMem a }

/-- A whole sequence of calls. -/
def PoolRun.runCalls (r : PoolRun) (calls : List MemCall) : PoolRun :=
  calls.foldl PoolRun.step r

/-- What a caller promises about its arguments. -/
def Pool.CallOk (p : Pool) : MemCall → Prop
  | .allocMem size alignment boundary =>
      PowerOrZero alignment ∧ PowerOrZero boundary ∧
        p.allocPtr.toNat + alignment.toNat + boundary.toNat + size.toNat < 2 ^ 64
  | .freeMem _ => True

/-- Every call of the sequence keeps that promise when it is made. -/
def PoolRun.CallsOk : PoolRun → List MemCall → Prop
  | _, [] => True
  | r, c :: cs => r.pool.CallOk c ∧ PoolRun.CallsOk (r.step c) cs

/-- The pool's invariant: every block handed out lies in the pool and below
`alloc_ptr`, and no two of them overlap. -/
structure PoolRun.Inv (m : MemoryPool) (r : PoolRun) : Prop where
  samePool : r.pool.memoryPool = m
  base_le : m.addr.toNat ≤ r.pool.allocPtr.toNat
  inside : ∀ b ∈ r.blocks, m.addr.toNat ≤ b.addr ∧ b.addr + b.size ≤ m.limit
  below : ∀ b ∈ r.blocks, b.addr + b.size ≤ r.pool.allocPtr.toNat
  apart : r.blocks.Pairwise fun b c => Disjoint b.bytes c.bytes

/-- Before the first call there are no blocks to keep apart. -/
theorem PoolRun.inv_init (m : MemoryPool) : (PoolRun.init m).Inv m where
  samePool := rfl
  base_le := Nat.le_refl _
  inside := by simp [PoolRun.init]
  below := by simp [PoolRun.init]
  apart := List.Pairwise.nil

/-- A block at or above `q` shares no byte with one that ends at or below `q`. -/
theorem Block.disjoint_of_le {b c : Block} {q : Nat} (hb : b.addr + b.size ≤ q)
    (hc : q ≤ c.addr) : Disjoint b.bytes c.bytes := by
  rw [Set.disjoint_left]
  rintro x hx hy
  simp only [Block.bytes, Set.mem_Ico] at hx hy
  omega

/-- **Step lemma.** One call keeps the pool's invariant: a new block lies behind all blocks so
far and inside the pool, and a refusal adds none. -/
theorem PoolRun.Inv.step {m : MemoryPool} {r : PoolRun} (h : r.Inv m) {c : MemCall}
    (hok : r.pool.CallOk c) : (r.step c).Inv m := by
  cases c with
  | freeMem a => exact ⟨h.samePool, h.base_le, h.inside, h.below, h.apart⟩
  | allocMem size alignment boundary =>
      obtain ⟨ha, hb, hfit⟩ := hok
      have hbnd := place_bounds ha hb hfit
      have hlow : m.addr.toNat ≤ (r.pool.place size alignment boundary).toNat :=
        Nat.le_trans h.base_le hbnd.1
      have hpos := m.addr_pos
      have hcases := allocMem_cases ha hb hfit
      rw [h.samePool] at hcases
      rcases hcases with ⟨-, hres⟩ | ⟨hin, hend, hres⟩
      · rw [PoolRun.step, hres, PoolRun.record, if_pos rfl]
        exact ⟨rfl, hlow, h.inside,
          fun b hb => Nat.le_trans (h.below b hb) hbnd.1, h.apart⟩
      · have hne : r.pool.place size alignment boundary ≠ nullptr := by
          intro heq
          rw [heq, nullptr] at hlow
          simp at hlow
          omega
        rw [PoolRun.step, hres, PoolRun.record, if_neg hne]
        refine ⟨rfl, ?_, ?_, ?_, ?_⟩
        · show m.addr.toNat ≤ (r.pool.place size alignment boundary + size).toNat
          omega
        · intro b hb
          rcases List.mem_append.mp hb with hb | hb
          · exact h.inside b hb
          · obtain rfl := List.mem_singleton.mp hb
            exact ⟨hlow, hin⟩
        · intro b hb
          show b.addr + b.size ≤ (r.pool.place size alignment boundary + size).toNat
          rcases List.mem_append.mp hb with hb | hb
          · have := h.below b hb
            omega
          · obtain rfl := List.mem_singleton.mp hb
            exact Nat.le_of_eq hend.symm
        · rw [List.pairwise_append]
          refine ⟨h.apart, List.pairwise_singleton _ _, ?_⟩
          intro b hb c hc
          obtain rfl := List.mem_singleton.mp hc
          exact Block.disjoint_of_le (h.below b hb) hbnd.1

/-- A sequence of calls keeps the pool's invariant. -/
theorem PoolRun.Inv.runCalls {m : MemoryPool} {calls : List MemCall} :
    ∀ {r : PoolRun}, r.Inv m → r.CallsOk calls → (r.runCalls calls).Inv m := by
  induction calls with
  | nil => exact fun h _ => h
  | cons c cs ih => exact fun h hok => ih (h.step hok.1) hok.2

/-- The promise splits at any point of the sequence. -/
theorem PoolRun.callsOk_append {cs ds : List MemCall} :
    ∀ {r : PoolRun}, r.CallsOk (cs ++ ds) → r.CallsOk cs ∧ (r.runCalls cs).CallsOk ds := by
  induction cs with
  | nil => exact fun h => ⟨trivial, h⟩
  | cons c cs ih =>
      intro r h
      obtain ⟨h1, h2⟩ := ih h.2
      exact ⟨⟨h.1, h1⟩, h2⟩

/-- **The allocator over a whole history.**  After any sequence of calls that
keep their promise, the next `AllocMem` chooses the lowest admissible address
at or above `alloc_ptr`.  It returns null exactly when the block there would
end beyond the pool; otherwise the result is that address: aligned, inside the
pool, apart from every block handed out before, and not across a boundary. -/
theorem allocMem_history (m : MemoryPool) (calls : List MemCall) (size : BitVec 64)
    (alignment boundary : BitVec 32)
    (hok : (PoolRun.init m).CallsOk (calls ++ [.allocMem size alignment boundary])) :
    let r := (PoolRun.init m).runCalls calls
    let result := (r.pool.allocMem size alignment boundary).1
    ∃ a, IsLeast {q | Admissible r.pool.allocPtr.toNat size.toNat alignment.toNat
          boundary.toNat q} a ∧
      (result = nullptr ↔ m.limit < a + size.toNat) ∧
      (result ≠ nullptr →
        result.toNat = a ∧
        (0 < alignment.toNat → alignment.toNat ∣ result.toNat) ∧
        m.addr.toNat ≤ result.toNat ∧ result.toNat + size.toNat ≤ m.limit ∧
        (∀ b ∈ r.blocks, Disjoint b.bytes (Block.bytes ⟨result.toNat, size.toNat⟩)) ∧
        (0 < size.toNat → size.toNat ≤ boundary.toNat →
          NoCross result.toNat size.toNat boundary.toNat)) := by
  intro r result
  obtain ⟨hpre, ⟨ha, hb, hfit⟩, -⟩ := PoolRun.callsOk_append hok
  have hinv : r.Inv m := (PoolRun.inv_init m).runCalls hpre
  have hleast := place_isLeast ha hb hfit
  have hlow : m.addr.toNat ≤ (r.pool.place size alignment boundary).toNat :=
    Nat.le_trans hinv.base_le hleast.1.1
  have hne : r.pool.place size alignment boundary ≠ nullptr := by
    intro heq
    have hpos := m.addr_pos
    rw [heq, nullptr] at hlow
    simp at hlow
    omega
  refine ⟨(r.pool.place size alignment boundary).toNat, hleast, ?_⟩
  have hcases := allocMem_cases ha hb hfit
  rw [hinv.samePool] at hcases
  rcases hcases with ⟨hout, hres⟩ | ⟨hin, -, hres⟩
  · have hnull : result = nullptr := congrArg Prod.fst hres
    exact ⟨⟨fun _ => hout, fun _ => hnull⟩, fun h => absurd hnull h⟩
  · have hval : result = r.pool.place size alignment boundary := congrArg Prod.fst hres
    rw [hval]
    refine ⟨⟨fun h => absurd h hne, fun h => ?_⟩, fun _ => ?_⟩
    · exact absurd hin (Nat.not_le_of_lt h)
    · refine ⟨rfl, hleast.1.2.1, hlow, hin, ?_, ?_⟩
      · exact fun b hb => Block.disjoint_of_le (hinv.below b hb) hleast.1.1
      · intro hpos hle
        have h := hleast.1.2.2 (by omega)
        rwa [if_pos hle] at h

/-- A pool whose first address is a multiple of 64 and of nothing larger. -/
def samplePool : MemoryPool := ⟨0x200040, by decide, by decide, by decide⟩

/-- A scratchpad page asked for after a 64-byte block: there is a lowest admissible place for
it, behind the block. -/
theorem allocMem_history_scratchpad_page :
    ∃ a, IsLeast {q | Admissible
      ((PoolRun.init samplePool).runCalls [.allocMem 64 64 4096]).pool.allocPtr.toNat
        4096 4096 4096 q} a := by
  have hok : (PoolRun.init samplePool).CallsOk
      ([.allocMem 64 64 4096] ++ [.allocMem 4096 4096 4096]) :=
    ⟨⟨Or.inr ⟨6, rfl⟩, Or.inr ⟨12, rfl⟩, by decide⟩,
      ⟨Or.inr ⟨12, rfl⟩, Or.inr ⟨12, rfl⟩, by decide⟩, trivial⟩
  obtain ⟨a, hleast, -⟩ := allocMem_history samplePool [.allocMem 64 64 4096] 4096 4096 4096 hok
  exact ⟨a, hleast⟩

end Mikanos.Usb
