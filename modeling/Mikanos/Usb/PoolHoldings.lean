import Mikanos.Lib.Arena
import Mikanos.Usb.BlockPlacement

/-!
# Holdings in the memory pool

Who holds which bytes of the memory pool is a family of sets of addresses.  The border of
what has been handed out is `alloc_ptr` or the end of the pool, whichever comes first, for
a call that fails may leave `alloc_ptr` behind the pool.  `DrawsMemory` is what a
call does that takes memory from the pool: the family grows, in the sense of the arena, by
blocks that lie between the borders before and after the call.
-/

namespace Mikanos.Usb

/-- The bytes of an object at `p`.  There is none at address null: a pointer that is null
holds no memory, and says nothing about where the controller would look for the object. -/
def bytesAt (p : Addr) (size : Nat) : Set Nat :=
  {x | p ≠ nullptr ∧ x ∈ Set.Ico p.toNat (p.toNat + size)}

/-- No byte belongs to an object at address null. -/
theorem bytesAt_nullptr (size : Nat) : bytesAt nullptr size = ∅ :=
  Set.eq_empty_of_forall_notMem fun _ h => h.1 rfl

/-- The end of the memory that has been handed out.  A call that fails may leave `alloc_ptr`
behind the pool. -/
def Pool.border (p : Pool) : Nat := min p.allocPtr.toNat p.memoryPool.limit

/-- The pool is `m`, and the rounding of calls that fail has not moved `alloc_ptr` past the
next multiple of 64 KiB. -/
structure Pool.Sound (m : MemoryPool) (p : Pool) : Prop where
  memoryPool : p.memoryPool = m
  base : m.addr.toNat ≤ p.allocPtr.toNat
  ceiling : p.allocPtr.toNat ≤ Align.roundUp m.limit (2 ^ 16)

/-- A fresh pool starts at its first byte. -/
theorem Pool.sound_init (m : MemoryPool) : (Pool.init m).Sound m where
  memoryPool := rfl
  base := Nat.le_refl _
  ceiling := Nat.le_trans (Nat.le_add_right _ _) (Align.le_roundUp (by decide))

/-- The pool does not lie at the end of the address space. -/
def MemoryPool.Roomy (m : MemoryPool) : Prop := m.limit + 2 ^ 20 < 2 ^ 64

/-- The driver asks for no constraint beyond 64 KiB. -/
def Modest (w : BitVec 32) : Prop := PowerOrZero w ∧ w.toNat ≤ 2 ^ 16

/-- A power of two up to 64 KiB divides 64 KiB. -/
theorem Modest.dvd {w : BitVec 32} (h : Modest w) (hpos : 0 < w.toNat) : w.toNat ∣ 2 ^ 16 := by
  obtain ⟨i, hi⟩ := h.1.pow hpos
  have hle := h.2
  rw [hi] at hle ⊢
  exact Nat.pow_dvd_pow 2 ((Nat.pow_le_pow_iff_right (by decide)).mp hle)

/-- The placement stays below a multiple of 64 KiB that is not below `alloc_ptr`, since
alignments and boundaries divide it. -/
theorem place_le {p : Pool} {size : BitVec 64} {alignment boundary : BitVec 32} {b : Nat}
    (ha : Modest alignment) (hb : Modest boundary) (hle : p.allocPtr.toNat ≤ b) (hdvd : 2 ^ 16 ∣ b)
    (hfit : p.allocPtr.toNat + alignment.toNat + boundary.toNat + size.toNat < 2 ^ 64) :
    (p.place size alignment boundary).toNat ≤ b := by
  have haligned : p.alignedPtr alignment ≤ b :=
    alignedPtr_least hle fun hpos => (ha.dvd hpos).trans hdvd
  rw [place_toNat ha.1 hb.1 hfit]
  split
  · rename_i h
    exact Align.roundUp_least haligned ((hb.dvd h.1).trans hdvd)
  · exact haligned

section OneBlock

variable {m : MemoryPool} {p : Pool} {size : BitVec 64} {alignment boundary : BitVec 32}

/-- **One block**: it lies between the borders before and after the call, so the memory above
the border is nobody's yet. -/
theorem allocMem_border (hroomy : m.Roomy) (hp : p.Sound m) (ha : Modest alignment)
    (hb : Modest boundary) (hsize : size.toNat ≤ 2 ^ 19) {block : Addr × Pool}
    (hblock : p.allocMem size alignment boundary = block) :
    block.2.Sound m ∧ p.border ≤ block.2.border ∧
      bytesAt block.1 size.toNat ⊆ Set.Ico p.border block.2.border := by
  obtain ⟨rfl, hbase, hceiling⟩ := hp
  have hlimit : p.memoryPool.limit < 2 ^ 64 - 2 ^ 20 := Nat.lt_sub_of_add_lt hroomy
  have hnext : Align.roundUp p.memoryPool.limit (2 ^ 16) < p.memoryPool.limit + 2 ^ 16 :=
    Align.roundUp_lt (by decide)
  have hbehind : p.memoryPool.limit ≤ Align.roundUp p.memoryPool.limit (2 ^ 16) :=
    Align.le_roundUp (by decide)
  have ha16 := ha.2
  have hb16 := hb.2
  have hfit : p.allocPtr.toNat + alignment.toNat + boundary.toNat + size.toNat < 2 ^ 64 := by
    omega
  have hup := (place_bounds ha.1 hb.1 hfit).1
  have hdown := place_le ha hb hceiling (Align.dvd_roundUp _ _) hfit
  have hcases := allocMem_cases ha.1 hb.1 hfit
  rw [hblock] at hcases
  generalize p.place size alignment boundary = placed at hup hdown hcases
  unfold Pool.border
  rcases hcases with ⟨-, rfl⟩ | ⟨hfits, hend, rfl⟩
  · -- No block: only the rounding is left.
    dsimp only
    refine ⟨⟨rfl, Nat.le_trans hbase hup, hdown⟩, by omega, ?_⟩
    rw [bytesAt_nullptr]
    exact Set.empty_subset _
  · dsimp only
    refine ⟨⟨rfl, by dsimp only; omega, by dsimp only; omega⟩, by omega, ?_⟩
    rintro x ⟨-, hge, hlt⟩
    exact ⟨by omega, by omega⟩

/-- Fewer than `size` bytes are left in the pool. -/
def Pool.Short (p : Pool) (size : Nat) : Prop := p.memoryPool.limit < p.border + size

/-- What is used up stays used up, for `alloc_ptr` only rises. -/
theorem Pool.Short.mono {p' : Pool} {n : Nat} (h : p.Short n) (hp : p.Sound m) (hp' : p'.Sound m)
    (hborder : p.border ≤ p'.border) : p'.Short n := by
  unfold Pool.Short at *
  rw [hp.memoryPool] at h
  rw [hp'.memoryPool]
  omega

/-- **A block that is null**: between the border behind everything handed out so far and the end
of the pool there is less room than its size. -/
theorem allocMem_short (hroomy : m.Roomy) (hp : p.Sound m) (ha : Modest alignment)
    (hb : Modest boundary) (hpos : 0 < size.toNat) (hsize : size.toNat ≤ 2 ^ 19)
    (hstarted : 0 < p.border) {block : Addr × Pool}
    (hblock : p.allocMem size alignment boundary = block) (hnull : block.1 = nullptr) :
    block.2.Short size.toNat := by
  obtain ⟨rfl, hbase, hceiling⟩ := hp
  have hlimit : p.memoryPool.limit < 2 ^ 64 - 2 ^ 20 := Nat.lt_sub_of_add_lt hroomy
  have hnext : Align.roundUp p.memoryPool.limit (2 ^ 16) < p.memoryPool.limit + 2 ^ 16 :=
    Align.roundUp_lt (by decide)
  have ha16 := ha.2
  have hb16 := hb.2
  have hfit : p.allocPtr.toNat + alignment.toNat + boundary.toNat + size.toNat < 2 ^ 64 := by
    omega
  have hup := (place_bounds ha.1 hb.1 hfit).1
  have hcases := allocMem_cases ha.1 hb.1 hfit
  rw [hblock] at hcases
  generalize p.place size alignment boundary = placed at hup hcases
  unfold Pool.border at hstarted
  unfold Pool.Short Pool.border
  rcases hcases with ⟨hshort, rfl⟩ | ⟨-, -, rfl⟩
  · dsimp only
    omega
  · -- The block is at `alloc_ptr` or behind it, and that is not null.
    dsimp only at hnull
    rw [hnull] at hup
    have hzero : (nullptr : Addr).toNat = 0 := rfl
    omega

/-- A block that is not null leaves `alloc_ptr` behind it. -/
theorem border_pos_of_block (hroomy : m.Roomy) (hp : p.Sound m) (ha : Modest alignment)
    (hb : Modest boundary) (hpos : 0 < size.toNat) (hsize : size.toNat ≤ 2 ^ 19)
    {block : Addr × Pool} (hblock : p.allocMem size alignment boundary = block)
    (hne : block.1 ≠ nullptr) : 0 < block.2.border := by
  obtain ⟨-, -, hinside⟩ := allocMem_border hroomy hp ha hb hsize hblock
  have hfirst : block.1.toNat ∈ bytesAt block.1 size.toNat :=
    ⟨hne, Nat.le_refl _, Nat.lt_add_of_pos_right hpos⟩
  exact Nat.lt_of_le_of_lt (Nat.zero_le _) (hinside hfirst).2

/-- A call that takes memory from the pool `m` for the owners in `O`. -/
def DrawsMemory {O : Type} (m : MemoryPool) (own : O → Set Nat) (p : Pool) (own' : O → Set Nat)
    (p' : Pool) : Prop :=
  p.Sound m → p'.Sound m ∧ Arena.Grows p.border p'.border own own'

variable {O : Type} {own own' own'' : O → Set Nat} {p' p'' : Pool}

/-- A call that leaves the pool alone gives nobody more than they had. -/
theorem DrawsMemory.of_subset (hsub : ∀ o, own' o ⊆ own o) : DrawsMemory m own p own' p :=
  fun hp => ⟨hp, .of_subset (Nat.le_refl _) hsub⟩

theorem DrawsMemory.refl (m : MemoryPool) (own : O → Set Nat) (p : Pool) :
    DrawsMemory m own p own p :=
  .of_subset fun _ => subset_rfl

/-- One call after the other: the border only rises, so what the second takes is not what the
first has taken. -/
theorem DrawsMemory.trans (h : DrawsMemory m own p own' p') (h' : DrawsMemory m own' p' own'' p'') :
    DrawsMemory m own p own'' p'' := by
  intro hp
  obtain ⟨hp', hgrows⟩ := h hp
  obtain ⟨hp'', hgrows'⟩ := h' hp'
  exact ⟨hp'', hgrows.trans hgrows'⟩

/-- A block that one owner takes. -/
theorem DrawsMemory.block (hroomy : m.Roomy) (ha : Modest alignment) (hb : Modest boundary)
    (hsize : size.toNat ≤ 2 ^ 19) {block : Addr × Pool}
    (hblock : p.allocMem size alignment boundary = block) (o : O)
    (hone : own' o ⊆ own o ∪ bytesAt block.1 size.toNat)
    (hrest : ∀ o', o' ≠ o → own' o' ⊆ own o') : DrawsMemory m own p own' block.2 := by
  intro hp
  obtain ⟨hp', hborder, hinside⟩ := allocMem_border hroomy hp ha hb hsize hblock
  exact ⟨hp', .of_one o hborder (hone.trans (Set.union_subset_union_right _ hinside)) hrest⟩

/-- A block that nobody keeps. -/
theorem DrawsMemory.unused (hroomy : m.Roomy) (ha : Modest alignment) (hb : Modest boundary)
    (hsize : size.toNat ≤ 2 ^ 19) {block : Addr × Pool}
    (hblock : p.allocMem size alignment boundary = block) : DrawsMemory m own p own block.2 := by
  intro hp
  obtain ⟨hp', hborder, -⟩ := allocMem_border hroomy hp ha hb hsize hblock
  exact ⟨hp', .of_subset hborder fun _ => subset_rfl⟩

/-- What a component does is done by the whole. -/
theorem DrawsMemory.lift {P : Type} (f : P → O) (h : DrawsMemory m (own ∘ f) p (own' ∘ f) p')
    (hrest : ∀ o, (∀ q, o ≠ f q) → own' o ⊆ own o) : DrawsMemory m own p own' p' := by
  intro hp
  obtain ⟨hp', hgrows⟩ := h hp
  exact ⟨hp', hgrows.lift f hrest⟩

end OneBlock

/-- No constraint at all, as for the objects that only the driver uses. -/
theorem modest_zero : Modest 0 := ⟨powerOrZero_zero, by decide⟩

/-- The alignment of contexts and rings. -/
theorem modest_line : Modest 64 := ⟨powerOrZero_line, by decide⟩

/-- The alignment and the boundary of a page. -/
theorem modest_page : Modest 4096 := ⟨powerOrZero_page, by decide⟩

/-- The boundary of a ring segment. -/
theorem modest_segment : Modest (64 * 1024) := ⟨powerOrZero_segment, by decide⟩

end Mikanos.Usb
