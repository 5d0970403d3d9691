import Mikanos.Usb.BlockPlacement

/-!
# Requests that fail, and requests that wrap

`AllocMem` rounds `alloc_ptr` in place and tests for room afterwards.  A request that is
refused therefore keeps the roundings: it costs nothing only if `alloc_ptr` already met
both constraints (`costsNothing_iff`).

Its arithmetic is that of 64-bit words.  `Sound` is what a call owes its caller in
unbounded arithmetic, with the product `sizeof(T) * num_obj` taken as a number;
`sound_iff` says which calls keep it, and `arithmetic_sound_iff` carries this through a
sequence of calls, in which `alloc_ptr` never goes below the pool.
-/

namespace Mikanos.Usb

/-- The constraints of a request are `0` or powers of two. -/
structure MemRequest.Constrained (r : MemRequest) : Prop where
  alignment : PowerOrZero r.alignment
  boundary : PowerOrZero r.boundary

/-- The test for room of `AllocMem` fails. -/
def Pool.Refuses (p : Pool) (r : MemRequest) : Prop :=
  p.memoryPool.addr + BitVec.ofNat 64 kMemoryPoolSize
    < p.place r.size r.alignment r.boundary + r.size

instance (p : Pool) (r : MemRequest) : Decidable (p.Refuses r) :=
  inferInstanceAs (Decidable (_ < _))

/-- `alloc_ptr` already meets the constraints of a request: it is aligned, and on a boundary
or far enough from the next one. -/
def Pool.Settled (p : Pool) (r : MemRequest) : Prop :=
  (0 < r.alignment.toNat → r.alignment.toNat ∣ p.allocPtr.toNat) ∧
    (0 < r.boundary.toNat → r.boundary.toNat ∣ p.allocPtr.toNat ∨
      ¬ ceil p.allocPtr r.boundary < p.allocPtr + r.size)

/-- A pool is its memory and its pointer. -/
theorem Pool.eq_of_fields {p q : Pool} (hpool : p.memoryPool = q.memoryPool)
    (hptr : p.allocPtr = q.allocPtr) : p = q := by
  cases p
  cases q
  cases hpool
  cases hptr
  rfl

/-- A request that is refused moves the pointer by its rounding, and gets null. -/
theorem serve_of_refuses {p : Pool} {r : MemRequest} (h : p.Refuses r) :
    p.serve r = (nullptr, { p with allocPtr := p.place r.size r.alignment r.boundary }) :=
  if_pos h

/-- A request that is not refused gets its place, and the pointer moves behind it. -/
theorem serve_of_room {p : Pool} {r : MemRequest} (h : ¬ p.Refuses r) :
    p.serve r = (p.place r.size r.alignment r.boundary,
      { p with allocPtr := p.place r.size r.alignment r.boundary + r.size }) :=
  if_neg h

/-! ## What the roundings change -/

section Roundings

variable {p : Pool} {r : MemRequest}

/-- The aligned pointer is aligned, also where it wraps. -/
theorem dvd_alignedAddr (hr : r.Constrained) (hpos : 0 < r.alignment.toNat) :
    r.alignment.toNat ∣ (p.alignedAddr r.alignment).toNat := by
  obtain ⟨i, hi⟩ := hr.alignment.pow hpos
  rw [Pool.alignedAddr, if_pos ((pos_iff_toNat _).mpr hpos), hi]
  exact dvd_ceil p.allocPtr hi

/-- An `alloc_ptr` that is aligned as the request asks is not moved by the first rounding. -/
theorem alignedAddr_of_dvd (hr : r.Constrained)
    (hdvd : 0 < r.alignment.toNat → r.alignment.toNat ∣ p.allocPtr.toNat) :
    p.alignedAddr r.alignment = p.allocPtr := by
  unfold Pool.alignedAddr
  split
  · rename_i hpos
    have hpos := (pos_iff_toNat _).mp hpos
    obtain ⟨i, hi⟩ := hr.alignment.pow hpos
    exact (ceil_eq_self_iff p.allocPtr hi).mpr (hdvd hpos)
  · rfl

/-- If the second rounding leads back to `alloc_ptr`, the first one has not left it, so it was
aligned to start with. -/
theorem dvd_of_ceil_eq (hr : r.Constrained) (hbpos : 0 < r.boundary.toNat)
    (hback : ceil (p.alignedAddr r.alignment) r.boundary = p.allocPtr)
    (hapos : 0 < r.alignment.toNat) : r.alignment.toNat ∣ p.allocPtr.toNat := by
  obtain ⟨j, hj⟩ := hr.boundary.pow hbpos
  have hboundary : r.boundary.toNat ∣ p.allocPtr.toNat := by
    rw [← hback, hj]
    exact dvd_ceil _ hj
  rcases Align.pow_two_dvd_or_dvd (hr.alignment.pow hapos) (hr.boundary.pow hbpos) with h | h
  · exact h.trans hboundary
  · have haligned := dvd_alignedAddr (p := p) hr hapos
    rw [(ceil_eq_self_iff _ hj).mpr (h.trans haligned)] at hback
    rwa [hback] at haligned

/-- **The roundings leave `alloc_ptr` alone** exactly if it meets the constraints of the
request, in 64-bit arithmetic and for every pointer. -/
theorem place_eq_self_iff (hr : r.Constrained) :
    p.place r.size r.alignment r.boundary = p.allocPtr ↔ p.Settled r := by
  rw [place_eq]
  constructor
  · intro hplace
    split at hplace
    · rename_i hcross
      have hbpos := (pos_iff_toNat _).mp hcross.1
      obtain ⟨j, hj⟩ := hr.boundary.pow hbpos
      refine ⟨dvd_of_ceil_eq hr hbpos hplace, fun _ => Or.inl ?_⟩
      rw [← hplace, hj]
      exact dvd_ceil _ hj
    · rename_i hcross
      have hdvd := fun hapos => dvd_alignedAddr (p := p) hr hapos
      rw [hplace] at hdvd hcross
      exact ⟨hdvd, fun hbpos => Or.inr fun hlt => hcross ⟨(pos_iff_toNat _).mpr hbpos, hlt⟩⟩
  · intro ⟨hdvd, hboundary⟩
    rw [alignedAddr_of_dvd hr hdvd]
    split
    · rename_i hcross
      have hbpos := (pos_iff_toNat _).mp hcross.1
      obtain ⟨j, hj⟩ := hr.boundary.pow hbpos
      rcases hboundary hbpos with hon | hfar
      · exact (ceil_eq_self_iff _ hj).mpr hon
      · exact absurd hcross.2 hfar
    · rfl

end Roundings

/-! ## The price of a failed request -/

/-- If the request gets null, `alloc_ptr` is what it was, and every later request that would
have been served is served as if this one had not been made. -/
def Pool.CostsNothing (p : Pool) (r : MemRequest) : Prop :=
  (p.serve r).1 = nullptr →
    (p.serve r).2.allocPtr = p.allocPtr ∧
      ∀ between later, ((p.serveAll between).serve later).1 ≠ nullptr →
        (((p.serve r).2.serveAll between).serve later).1 = ((p.serveAll between).serve later).1

/-- What a failed request costs is decided by where `alloc_ptr` is afterwards: every later
request starts from there. -/
theorem costsNothing_iff_allocPtr {p : Pool} {r : MemRequest} :
    p.CostsNothing r ↔ ((p.serve r).1 = nullptr → (p.serve r).2.allocPtr = p.allocPtr) := by
  constructor
  · exact fun h hnull => (h hnull).1
  · intro h hnull
    have hptr := h hnull
    have hpool : (p.serve r).2.memoryPool = p.memoryPool := by
      by_cases hroom : p.Refuses r
      · rw [serve_of_refuses hroom]
      · rw [serve_of_room hroom]
    rw [Pool.eq_of_fields hpool hptr]
    exact ⟨rfl, fun _ _ _ => rfl⟩

theorem nullptr_toNat : nullptr.toNat = 0 := rfl

theorem nullptr_add (x : Addr) : nullptr + x = x := BitVec.zero_add x

/-- **A failed request costs nothing** exactly if it is refused with `alloc_ptr` already
where its constraints want it.  A request that passes the test for room is answered with
null only if its place has wrapped round to address 0. -/
theorem costsNothing_iff (p : Pool) (r : MemRequest) (hr : r.Constrained) :
    p.CostsNothing r ↔ (p.Refuses r → p.Settled r) ∧
      (¬ p.Refuses r → p.place r.size r.alignment r.boundary = nullptr →
        r.size = p.allocPtr) := by
  rw [costsNothing_iff_allocPtr, ← place_eq_self_iff hr]
  by_cases hrefused : p.Refuses r
  · rw [serve_of_refuses hrefused]
    exact ⟨fun h => ⟨fun _ => h rfl, fun hroom => absurd hrefused hroom⟩,
      fun h _ => h.1 hrefused⟩
  · rw [serve_of_room hrefused]
    constructor
    · intro h
      refine ⟨fun h => absurd h hrefused, fun _ hnull => ?_⟩
      have hptr := h hnull
      simp only at hptr
      rwa [hnull, nullptr_add] at hptr
    · intro h hnull
      have hsize := h.2 hrefused hnull
      have hnull : p.place r.size r.alignment r.boundary = nullptr := hnull
      simp only
      rw [hnull, nullptr_add]
      exact hsize

/-- A pool with less than two pages left. -/
def nearlyFull : Pool := ⟨samplePool, 0x21f080⟩

/-- The request for a scratchpad page. -/
def pageRequest : MemRequest := ⟨4096, 4096, 4096⟩

/-- A scratchpad page has both constraints. -/
theorem pageRequest_constrained : pageRequest.Constrained :=
  ⟨powerOrZero_page, powerOrZero_page⟩

/-- **A page that does not fit** takes the room in front of its boundary along: a block of
256 bytes would have been served before it, and is not served after it. -/
theorem refused_page_costs_room :
    pageRequest.Constrained ∧ (nearlyFull.serve pageRequest).1 = nullptr ∧
      (nearlyFull.serve ⟨256, 64, 4096⟩).1 ≠ nullptr ∧
      ((nearlyFull.serve pageRequest).2.serve ⟨256, 64, 4096⟩).1 = nullptr ∧
      ¬ nearlyFull.CostsNothing pageRequest := by
  refine ⟨pageRequest_constrained, by decide, by decide, by decide, fun h => ?_⟩
  have hptr := (h (by decide)).1
  exact absurd hptr (by decide)

/-- A request for 128 bytes at the end of the pool is refused and costs nothing: `alloc_ptr` is
aligned as it asks, so it stays where it is. -/
theorem costsNothing_iff_last_line :
    Pool.CostsNothing ⟨samplePool, 0x220000⟩ ⟨128, 64, 4096⟩ :=
  (costsNothing_iff ⟨samplePool, 0x220000⟩ ⟨128, 64, 4096⟩
    ⟨powerOrZero_line, powerOrZero_page⟩).mpr
    ⟨fun _ => ⟨fun _ => by decide, fun _ => Or.inl (by decide)⟩,
      fun hroom => absurd (by decide) hroom⟩

/-! ## Requests in unbounded arithmetic -/

/-- `Allocator<T, Alignment, Boundary>::allocate(n)` for a `T` of `sizeofT` bytes. -/
def Pool.allocate (p : Pool) (sizeofT n : BitVec 64) (alignment boundary : BitVec 32) :
    Addr × Pool :=
  p.allocArray sizeofT n alignment boundary

/-- A call that hands out memory.  `FreeMem` does nothing. -/
inductive AllocCall where
  | allocMem (size : BitVec 64) (alignment boundary : BitVec 32)
  | allocArray (sizeofT numObj : BitVec 64) (alignment boundary : BitVec 32)
  | allocate (sizeofT n : BitVec 64) (alignment boundary : BitVec 32)

namespace AllocCall

/-- What the call returns, and the pool after it. -/
def result (p : Pool) : AllocCall → Addr × Pool
  | .allocMem size alignment boundary => p.allocMem size alignment boundary
  | .allocArray sizeofT numObj alignment boundary =>
      p.allocArray sizeofT numObj alignment boundary
  | .allocate sizeofT n alignment boundary => p.allocate sizeofT n alignment boundary

/-- The number of bytes that the caller asks for. -/
def bytes : AllocCall → Nat
  | .allocMem size _ _ => size.toNat
  | .allocArray sizeofT numObj _ _ => sizeofT.toNat * numObj.toNat
  | .allocate sizeofT n _ _ => sizeofT.toNat * n.toNat

/-- The request that reaches `AllocMem`. -/
def request : AllocCall → MemRequest
  | .allocMem size alignment boundary => ⟨size, alignment, boundary⟩
  | .allocArray sizeofT numObj alignment boundary => ⟨sizeofT * numObj, alignment, boundary⟩
  | .allocate sizeofT n alignment boundary => ⟨sizeofT * n, alignment, boundary⟩

/-- What a call of `AllocMem` or `AllocArray` gets is what the pool serves for its request. -/
theorem result_eq_serve (p : Pool) (c : AllocCall) : c.result p = p.serve c.request := by
  cases c <;> rfl

/-- The product reaches `AllocMem` modulo `2 ^ 64`. -/
theorem request_size (c : AllocCall) : c.request.size.toNat = c.bytes % 2 ^ 64 := by
  cases c with
  | allocMem size => exact (Nat.mod_eq_of_lt size.isLt).symm
  | allocArray sizeofT numObj => exact BitVec.toNat_mul sizeofT numObj
  | allocate sizeofT n => exact BitVec.toNat_mul sizeofT n

end AllocCall

/-- What a call owes its caller: a block that lies in the pool with all the bytes that were
asked for, and an `alloc_ptr` that does not go down. -/
structure Sound (p : Pool) (bytes : Nat) (result : Addr × Pool) : Prop where
  inside : result.1 ≠ nullptr →
    p.memoryPool.addr.toNat ≤ result.1.toNat ∧ result.1.toNat + bytes ≤ p.memoryPool.limit
  grows : p.allocPtr.toNat ≤ result.2.allocPtr.toNat

/-- Both roundings stay in the address space, and so does the block, unless it is refused. -/
structure Unwrapped (p : Pool) (bytes : Nat) (r : MemRequest) : Prop where
  aligned : alignedAt p.allocPtr.toNat r.alignment.toNat < 2 ^ 64
  boundary : 0 < r.boundary.toNat →
    Align.roundUp (alignedAt p.allocPtr.toNat r.alignment.toNat) r.boundary.toNat < 2 ^ 64
  block : ¬ p.Refuses r →
    blockAt p.allocPtr.toNat bytes r.alignment.toNat r.boundary.toNat + bytes < 2 ^ 64

/-- The place of the block wraps to address 0, and its size, which becomes `alloc_ptr`, is not
below `alloc_ptr`.  The caller gets null. -/
structure WrapsToNull (p : Pool) (r : MemRequest) : Prop where
  place : p.place r.size r.alignment r.boundary = nullptr
  room : ¬ p.Refuses r
  le : p.allocPtr.toNat ≤ r.size.toNat

section OneCall

variable {p : Pool} {r : MemRequest}

/-- The end of the pool, which the code computes in 64 bits, does not wrap. -/
theorem limitAddr_toNat (m : MemoryPool) :
    (m.addr + BitVec.ofNat 64 kMemoryPoolSize).toNat = m.limit := by
  have hfits := m.fits
  rw [BitVec.toNat_add, BitVec.toNat_ofNat, MemoryPool.limit]
  unfold kMemoryPoolSize at *
  omega

/-- A block lies behind the aligned pointer. -/
theorem alignedAt_le_blockAt (x size alignment boundary : Nat) :
    alignedAt x alignment ≤ blockAt x size alignment boundary := by
  unfold blockAt
  split
  · rename_i h
    exact Align.le_roundUp h.1
  · exact Nat.le_refl _

/-- Roundings that fit in 64 bits lead upwards, so the place is not below the pointer after the
first of them. -/
theorem alignedAt_le_place (hr : r.Constrained)
    (haligned : alignedAt p.allocPtr.toNat r.alignment.toNat < 2 ^ 64)
    (hup : 0 < r.boundary.toNat →
      Align.roundUp (alignedAt p.allocPtr.toNat r.alignment.toNat) r.boundary.toNat < 2 ^ 64) :
    alignedAt p.allocPtr.toNat r.alignment.toNat
      ≤ (p.place r.size r.alignment r.boundary).toNat := by
  have hptr : (p.alignedAddr r.alignment).toNat = alignedAt p.allocPtr.toNat r.alignment.toNat :=
    (alignedAddr_toNat p hr.alignment).trans (Nat.mod_eq_of_lt haligned)
  rw [place_eq]
  split
  · rename_i hcross
    have hpos := (pos_iff_toNat _).mp hcross.1
    obtain ⟨j, hj⟩ := hr.boundary.pow hpos
    rw [ceil_toNat_mod _ hj, hptr, Nat.mod_eq_of_lt (hup hpos)]
    exact Align.le_roundUp hpos
  · exact Nat.le_of_eq hptr.symm

/-- Roundings that do not fit lead to address 0, or the block ends at the end of the address
space. -/
theorem place_of_overflow (hr : r.Constrained)
    (hover : ¬ (alignedAt p.allocPtr.toNat r.alignment.toNat < 2 ^ 64 ∧
      (0 < r.boundary.toNat →
        Align.roundUp (alignedAt p.allocPtr.toNat r.alignment.toNat) r.boundary.toNat < 2 ^ 64))) :
    p.place r.size r.alignment r.boundary = nullptr ∨
      p.place r.size r.alignment r.boundary + r.size = nullptr := by
  by_cases haligned : alignedAt p.allocPtr.toNat r.alignment.toNat < 2 ^ 64
  · have hptr : (p.alignedAddr r.alignment).toNat
        = alignedAt p.allocPtr.toNat r.alignment.toNat :=
      (alignedAddr_toNat p hr.alignment).trans (Nat.mod_eq_of_lt haligned)
    obtain ⟨hpos, hup⟩ := Classical.not_imp.mp fun hup => hover ⟨haligned, hup⟩
    obtain ⟨j, hj⟩ := hr.boundary.pow hpos
    have hceil : ceil (p.alignedAddr r.alignment) r.boundary = nullptr :=
      ceil_of_wrap hj (by rw [hptr]; exact Nat.le_of_not_lt hup)
    rw [place_eq, hceil]
    split
    · exact Or.inl rfl
    · rename_i hcross
      refine Or.inr (BitVec.eq_of_toNat_eq (Nat.eq_zero_of_not_pos fun hlt => ?_))
      exact hcross ⟨(pos_iff_toNat _).mpr hpos, BitVec.lt_def.mpr hlt⟩
  · exact Or.inl (place_of_wrap hr.alignment hr.boundary (Nat.le_of_not_lt haligned))

/-- A call whose arithmetic does not wrap is sound: its block, if it gets one, has all its bytes
in the pool, and `alloc_ptr` does not go back. -/
theorem Unwrapped.sound {c : AllocCall} (hr : c.request.Constrained)
    (hbase : p.memoryPool.addr.toNat ≤ p.allocPtr.toNat) (h : Unwrapped p c.bytes c.request) :
    Sound p c.bytes (p.serve c.request) := by
  have hx : p.allocPtr.toNat ≤ alignedAt p.allocPtr.toNat c.request.alignment.toNat := by
    unfold alignedAt
    split
    · exact Align.le_roundUp (by assumption)
    · exact Nat.le_refl _
  by_cases hrefused : p.Refuses c.request
  · rw [serve_of_refuses hrefused]
    exact ⟨fun hne => absurd rfl hne,
      hx.trans (alignedAt_le_place hr h.aligned h.boundary)⟩
  · have hblock := h.block hrefused
    have hle := alignedAt_le_blockAt p.allocPtr.toNat c.bytes c.request.alignment.toNat
      c.request.boundary.toNat
    have hsize : c.request.size.toNat = c.bytes := by
      rw [c.request_size]
      exact Nat.mod_eq_of_lt (by omega)
    have hplace := @place_blockAt_of_lt p c.request.size _ _ hr.alignment hr.boundary h.aligned
      h.boundary (by omega)
    rw [hsize] at hplace
    have hend : (p.place c.request.size c.request.alignment c.request.boundary
        + c.request.size).toNat = blockAt p.allocPtr.toNat c.bytes c.request.alignment.toNat
          c.request.boundary.toNat + c.bytes := by
      rw [BitVec.toNat_add, hplace, hsize]
      exact Nat.mod_eq_of_lt hblock
    have hroom : blockAt p.allocPtr.toNat c.bytes c.request.alignment.toNat
        c.request.boundary.toNat + c.bytes ≤ p.memoryPool.limit := by
      rw [← hend, ← limitAddr_toNat]
      exact BitVec.not_lt.mp hrefused
    rw [serve_of_room hrefused]
    refine ⟨fun _ => ?_, ?_⟩
    · simp only
      rw [hplace]
      exact ⟨by omega, hroom⟩
    · simp only
      rw [hend]
      omega

/-- A block that has all its bytes in the pool, at a place other than 0, comes from arithmetic
that has not wrapped. -/
theorem unwrapped_of_inside {c : AllocCall} (hr : c.request.Constrained)
    (hplace : p.place c.request.size c.request.alignment c.request.boundary ≠ nullptr)
    (hroom : (p.place c.request.size c.request.alignment c.request.boundary).toNat + c.bytes
      ≤ p.memoryPool.limit) : Unwrapped p c.bytes c.request := by
  have hspace := p.memoryPool.fits
  have hlimit : p.memoryPool.limit < 2 ^ 64 := hspace
  have hsize : c.request.size.toNat = c.bytes := by
    rw [c.request_size]
    exact Nat.mod_eq_of_lt (by omega)
  have hend : (p.place c.request.size c.request.alignment c.request.boundary
      + c.request.size).toNat = (p.place c.request.size c.request.alignment
        c.request.boundary).toNat + c.bytes := by
    rw [BitVec.toNat_add, hsize]
    exact Nat.mod_eq_of_lt (by omega)
  have hfit := Classical.byContradiction fun hover => by
    rcases place_of_overflow hr hover with hnull | hwrap
    · exact hplace hnull
    · -- A sum that is 0 without a carry has a place that is 0.
      rw [hwrap, nullptr_toNat] at hend
      exact hplace (BitVec.eq_of_toNat_eq (by rw [nullptr_toNat]; omega))
  have hle := alignedAt_le_place hr hfit.1 hfit.2
  have hblock := @place_blockAt_of_lt p c.request.size _ _ hr.alignment hr.boundary hfit.1 hfit.2
    (by omega)
  rw [hsize] at hblock
  exact ⟨hfit.1, hfit.2, fun _ => by omega⟩

/-- **One call** of a pool whose `alloc_ptr` is not below it is sound exactly if its arithmetic
does not wrap, or if the place wraps to 0 and `alloc_ptr`, which is then set to the size, does
not go back. -/
theorem sound_iff {c : AllocCall} (hr : c.request.Constrained)
    (hbase : p.memoryPool.addr.toNat ≤ p.allocPtr.toNat) :
    Sound p c.bytes (c.result p) ↔
      Unwrapped p c.bytes c.request ∨ WrapsToNull p c.request := by
  have hpos := p.memoryPool.addr_pos
  rw [c.result_eq_serve]
  constructor
  · intro hsound
    by_cases hrefused : p.Refuses c.request
    · -- A refused request keeps its place, which is therefore not 0.
      have hgrows := hsound.grows
      rw [serve_of_refuses hrefused] at hgrows
      simp only at hgrows
      have hfit := Classical.byContradiction fun hover => by
        rcases place_of_overflow hr hover with hnull | hend
        · rw [hnull, nullptr_toNat] at hgrows
          omega
        · exact absurd (BitVec.lt_def.mp hrefused) (by rw [hend]; exact Nat.not_lt_zero _)
      exact Or.inl ⟨hfit.1, hfit.2, fun hroom => absurd hrefused hroom⟩
    · rw [serve_of_room hrefused] at hsound
      by_cases hplace : p.place c.request.size c.request.alignment c.request.boundary = nullptr
      · have hgrows := hsound.grows
        simp only at hgrows
        rw [hplace, nullptr_add] at hgrows
        exact Or.inr ⟨hplace, hrefused, hgrows⟩
      · obtain ⟨-, hroom⟩ := hsound.inside hplace
        exact Or.inl (unwrapped_of_inside hr hplace hroom)
  · rintro (h | h)
    · exact h.sound hr hbase
    · rw [serve_of_room h.room]
      refine ⟨fun hne => absurd h.place hne, ?_⟩
      simp only
      rw [h.place, nullptr_add]
      exact h.le

end OneCall

/-! ## Sequences of calls -/

/-- Each call of a sequence is sound. -/
def SoundRun : Pool → List AllocCall → Prop
  | _, [] => True
  | p, c :: cs => Sound p c.bytes (c.result p) ∧ SoundRun (c.result p).2 cs

/-- No call of a sequence wraps, but for those that get null and leave `alloc_ptr` no lower. -/
def UnwrappedRun : Pool → List AllocCall → Prop
  | _, [] => True
  | p, c :: cs => (Unwrapped p c.bytes c.request ∨ WrapsToNull p c.request) ∧
      UnwrappedRun (c.result p).2 cs

/-- No call replaces the memory of the pool. -/
theorem result_memoryPool (p : Pool) (c : AllocCall) :
    (c.result p).2.memoryPool = p.memoryPool := by
  rw [c.result_eq_serve]
  by_cases hrefused : p.Refuses c.request
  · rw [serve_of_refuses hrefused]
  · rw [serve_of_room hrefused]

/-- **Run lemma.** What carries from call to call is that `alloc_ptr` is not below the pool;
with it, each call of a sequence is judged by itself. -/
theorem soundRun_iff {calls : List AllocCall} (hcalls : ∀ c ∈ calls, c.request.Constrained) :
    ∀ {p : Pool}, p.memoryPool.addr.toNat ≤ p.allocPtr.toNat →
      (SoundRun p calls ↔ UnwrappedRun p calls) := by
  induction calls with
  | nil => exact fun _ => Iff.rfl
  | cons c cs ih =>
      intro p hbase
      have hstep := sound_iff (hcalls c List.mem_cons_self) hbase
      have hrest : Sound p c.bytes (c.result p) →
          (SoundRun (c.result p).2 cs ↔ UnwrappedRun (c.result p).2 cs) := by
        intro hsound
        refine ih (fun c hc => hcalls c (List.mem_cons_of_mem _ hc)) ?_
        rw [result_memoryPool]
        exact hbase.trans hsound.grows
      constructor
      · intro ⟨hsound, hrun⟩
        exact ⟨hstep.mp hsound, (hrest hsound).mp hrun⟩
      · intro ⟨hunwrapped, hrun⟩
        have hsound := hstep.mpr hunwrapped
        exact ⟨hsound, (hrest hsound).mpr hrun⟩

/-- **The arithmetic of the allocator.** From the empty pool on, every call of a sequence keeps
its promise exactly if none of them wraps, or those that do come to null and leave `alloc_ptr`
no lower. -/
theorem arithmetic_sound_iff (m : MemoryPool) (calls : List AllocCall)
    (hcalls : ∀ c ∈ calls, c.request.Constrained) :
    SoundRun (Pool.init m) calls ↔ UnwrappedRun (Pool.init m) calls :=
  soundRun_iff hcalls (Nat.le_refl _)

/-- An array of four pointers and then a page, as the driver asks for them: both calls are
sound. -/
theorem arithmetic_sound_iff_page :
    SoundRun (Pool.init samplePool) [.allocArray 8 4 64 4096, .allocMem 4096 4096 4096] := by
  refine (arithmetic_sound_iff samplePool _ ?_).mpr ⟨Or.inl ?_, Or.inl ?_, trivial⟩
  · intro c hc
    rcases List.mem_cons.mp hc with rfl | hc
    · exact ⟨powerOrZero_line, powerOrZero_page⟩
    · rw [List.mem_singleton.mp hc]
      exact ⟨powerOrZero_page, powerOrZero_page⟩
  · exact ⟨by decide, fun _ => by decide, fun _ => by decide⟩
  · exact ⟨by decide, fun _ => by decide, fun _ => by decide⟩

/-- An array of `2 ^ 61` pointers. -/
def hugeArray : AllocCall := .allocArray 8 0x2000000000000000 64 4096

/-- **The product of an array request wraps** to 0: the caller gets the address of the next
block as that of an array which is larger than the address space. -/
theorem huge_array_overlaps :
    hugeArray.request.Constrained ∧ (hugeArray.result (Pool.init samplePool)).1 ≠ nullptr ∧
      ((AllocCall.allocMem 64 64 4096).result (hugeArray.result (Pool.init samplePool)).2).1
        = (hugeArray.result (Pool.init samplePool)).1 ∧
      ¬ SoundRun (Pool.init samplePool) [hugeArray] := by
  refine ⟨⟨powerOrZero_line, powerOrZero_page⟩, by decide, by decide, fun hrun => ?_⟩
  have hroom := (hrun.1.inside (by decide)).2
  exact absurd hroom (by decide)

end Mikanos.Usb
