import Mikanos.Usb.BlockPlacement
import Mikanos.Xhci.Initialize

/-!
# The scratchpad buffers

`Initialize` takes, from one pool and in this order, the two arrays of the device
manager, the scratchpad array with its pages, the command ring and the event ring with
its segment table.  It tests all of these for null but the scratchpad array and its
pages.

All addresses follow from `alloc_ptr` at the start (`blockAt`).  When a page does not fit,
`alloc_ptr` stays on its 4096-byte boundary, and what is left of the pool behind it may
still hold the rings: then `Initialize` succeeds with null pages in the array.
-/

namespace Mikanos.Xhci.Controller

open Mikanos.Usb

/-! ## The layout -/

/-- Where `Initialize` puts the DCBAA when `alloc_ptr` is `x`, behind the array of
devices. -/
def contextsAt (x : Nat) : Nat := blockAt (x + 72) 72 64 4096

/-- Where it puts the array of `n` scratchpad buffers. -/
def scratchpadAt (x n : Nat) : Nat := blockAt (contextsAt x + 72) (8 * n) 64 4096

/-- Where it puts the first scratchpad buffer. -/
def firstPageAt (x n : Nat) : Nat := Align.roundUp (scratchpadAt x n + 8 * n) 4096

/-- The scratchpad buffer number `i`, when the first one is at `first`. -/
def pageAt (m : MemoryPool) (first i : Nat) : Addr :=
  if first + 4096 * i + 4096 ≤ m.limit then BitVec.ofNat 64 (first + 4096 * i) else nullptr

/-- How many scratchpad buffers there is room for. -/
def roomFor (m : MemoryPool) (first : Nat) : Nat := (m.limit - first) / 4096

section Layout

variable {m : MemoryPool} {pool : Pool} {x : Nat}

/-- The array of context pointers lies at `contextsAt x` behind the array of devices, or it is
missing because the pool ends before it. -/
theorem useContextArray_layout {block : Addr × Pool}
    (h : Allocates m (x + 72) 72 64 4096 block) {result : Error × DeviceManager × Pool}
    (hresult : DeviceManager.useContextArray kDeviceSize block = result) :
    (result.1 = .kNoEnoughMemory ∧ m.limit < contextsAt x + 72) ∨
    (result.1 = .kSuccess ∧ contextsAt x + 72 ≤ m.limit ∧
      result.2.1.contextArray.toNat = contextsAt x ∧ result.2.1.maxSlots = kDeviceSize ∧
      result.2.2.At m (contextsAt x + 72)) := by
  unfold DeviceManager.useContextArray at hresult
  dsimp only at hresult
  cases h with
  | full hfull hnull _ =>
      rw [if_pos hnull] at hresult
      subst hresult
      exact Or.inl ⟨rfl, hfull⟩
  | block hfits hne haddr hat =>
      rw [if_neg hne] at hresult
      subst hresult
      exact Or.inr ⟨rfl, hfits, haddr, rfl, hat⟩

/-- The array of devices in front, which has no constraint, and then the context array: both are
there, or the call returns an error. -/
theorem useDeviceArray_layout {block : Addr × Pool} (h : Allocates m x 72 0 0 block)
    (hx : m.addr.toNat ≤ x) (hfit : x + 2 ^ 17 < 2 ^ 64)
    {result : Error × DeviceManager × Pool}
    (hresult : DeviceManager.useDeviceArray kDeviceSize block = result) :
    (result.1 = .kNoEnoughMemory ∧ (m.limit < x + 72 ∨ m.limit < contextsAt x + 72)) ∨
    (result.1 = .kSuccess ∧ x + 72 ≤ m.limit ∧ contextsAt x + 72 ≤ m.limit ∧
      result.2.1.contextArray.toNat = contextsAt x ∧ result.2.1.maxSlots = kDeviceSize ∧
      result.2.2.At m (contextsAt x + 72)) := by
  have hblock : blockAt x 72 0 0 = x := rfl
  unfold DeviceManager.useDeviceArray at hresult
  cases h with
  | full hfull hnull _ =>
      rw [hblock] at hfull
      rw [if_pos hnull] at hresult
      subst hresult
      exact Or.inl ⟨rfl, Or.inl hfull⟩
  | block hfits hne haddr hat =>
      rw [hblock] at hfits hat
      rw [if_neg hne] at hresult
      have hcontexts : Allocates m (x + 72) 72 64 4096
          (block.2.allocArray 8 (BitVec.ofNat 64 (kDeviceSize + 1)) 64 4096) :=
        allocMem_allocates hat rfl rfl rfl powerOrZero_line powerOrZero_page (by omega) (by omega)
      rcases useContextArray_layout hcontexts hresult with ⟨hfail, hfull⟩ |
        ⟨hsuccess, hfits', hcontexts⟩
      · exact Or.inl ⟨hfail, Or.inr hfull⟩
      · exact Or.inr ⟨hsuccess, hfits, hfits', hcontexts⟩

/-- **The device manager.** -/
theorem initializeManager_layout (h : pool.At m x) (hx : m.addr.toNat ≤ x)
    (hfit : x + 2 ^ 17 < 2 ^ 64) {result : Error × DeviceManager × Pool}
    (hresult : DeviceManager.initializeManager kDeviceSize pool = result) :
    (result.1 = .kNoEnoughMemory ∧ (m.limit < x + 72 ∨ m.limit < contextsAt x + 72)) ∨
    (result.1 = .kSuccess ∧ x + 72 ≤ m.limit ∧ contextsAt x + 72 ≤ m.limit ∧
      result.2.1.contextArray.toNat = contextsAt x ∧ result.2.1.maxSlots = kDeviceSize ∧
      result.2.2.At m (contextsAt x + 72)) := by
  have hdevices : Allocates m x 72 0 0
      (pool.allocArray 8 (BitVec.ofNat 64 (kDeviceSize + 1)) 0 0) :=
    allocMem_allocates h rfl rfl rfl powerOrZero_zero powerOrZero_zero hx (by omega)
  exact useDeviceArray_layout hdevices hx hfit hresult

/-- There is room for one more page exactly when fewer than `roomFor` have been placed. -/
theorem page_fits_iff {first n : Nat} :
    first + 4096 * min n (roomFor m first) + 4096 ≤ m.limit ↔ n < roomFor m first := by
  unfold roomFor
  omega

/-- There is room for one more page exactly as long as the count of pages has not reached the
room. -/
theorem page_room_iff {first n : Nat} :
    first + 4096 * n + 4096 ≤ m.limit ↔ n < roomFor m first := by
  unfold roomFor
  omega

/-- The loop, one page further. -/
theorem scratchpadPages_succ {n : Nat} {placed : List Addr × Pool} {block : Addr × Pool}
    (hplaced : scratchpadPages pool n = placed)
    (hblock : placed.2.allocMem 4096 4096 4096 = block) :
    scratchpadPages pool (n + 1) = (placed.1 ++ [block.1], block.2) := by
  rw [scratchpadPages, hplaced, ← hblock]

/-- **The pages** are placed one behind the other; where they do not fit, the array gets
null pointers. -/
theorem scratchpadPages_layout (h : pool.At m x) (hx : m.addr.toNat ≤ x) (hin : x ≤ m.limit)
    (hlow : m.limit + 2 ^ 17 < 2 ^ 64) (n : Nat) :
    (scratchpadPages pool n).1 = (List.range n).map (pageAt m (Align.roundUp x 4096)) ∧
      ∃ z, (scratchpadPages pool n).2.At m z ∧ x ≤ z ∧
        Align.roundUp z 4096 =
          Align.roundUp x 4096 + 4096 * min n (roomFor m (Align.roundUp x 4096)) ∧
        (0 < n → z = Align.roundUp x 4096 + 4096 * min n (roomFor m (Align.roundUp x 4096))) := by
  have hfirst : 4096 ∣ Align.roundUp x 4096 := Align.dvd_roundUp x 4096
  have hbehind : x ≤ Align.roundUp x 4096 := Align.le_roundUp (by decide)
  have hahead : Align.roundUp x 4096 < x + 4096 := Align.roundUp_lt (by decide)
  induction n with
  | zero =>
      refine ⟨rfl, x, h, Nat.le_refl x, ?_, fun hpos => absurd hpos (Nat.lt_irrefl 0)⟩
      rw [Nat.zero_min, Nat.mul_zero, Nat.add_zero]
  | succ n ih =>
      obtain ⟨hpages, z, hat, hz, hup, -⟩ := ih
      generalize hplaced : scratchpadPages pool n = placed at hpages hat
      generalize Align.roundUp x 4096 = first at *
      have hroom : first + 4096 * min n (roomFor m first) ≤ m.limit + 4096 := by
        unfold roomFor
        omega
      have hzle : z ≤ Align.roundUp z 4096 := Align.le_roundUp (by decide)
      have hpage : Allocates m z 4096 4096 4096 (placed.2.allocMem 4096 4096 4096) :=
        allocMem_allocates hat rfl rfl rfl powerOrZero_page powerOrZero_page (by omega) (by omega)
      obtain ⟨block, hblock⟩ : ∃ block, placed.2.allocMem 4096 4096 4096 = block := ⟨_, rfl⟩
      rw [hblock] at hpage
      rw [scratchpadPages_succ hplaced hblock]
      dsimp only
      rw [hpages, List.range_succ, List.map_append, List.map_singleton]
      have hdvd : 4096 ∣ first + 4096 * min (n + 1) (roomFor m first) :=
        Nat.dvd_add hfirst (Nat.dvd_mul_right _ _)
      cases hpage with
      | full hfull hnull hstay =>
          rw [blockAt_aligned, hup] at hfull hstay
          have hlast : ¬ n < roomFor m first := fun hlt =>
            absurd (page_fits_iff.mpr hlt) (Nat.not_le.mpr hfull)
          have hsame : min n (roomFor m first) = min (n + 1) (roomFor m first) := by omega
          rw [hsame] at hstay
          refine ⟨?_, _, hstay, by omega, Align.roundUp_of_dvd (by decide) hdvd, fun _ => rfl⟩
          rw [hnull, pageAt, if_neg (fun hle => hlast (page_room_iff.mp hle))]
      | block hfits hne haddr hmove =>
          rw [blockAt_aligned, hup] at hfits haddr hmove
          have hlt : n < roomFor m first := page_fits_iff.mp hfits
          have hall : min n (roomFor m first) = n := by omega
          have hsucc : min (n + 1) (roomFor m first) = n + 1 := by omega
          rw [hall] at haddr hmove
          have hbehind' :
              first + 4096 * n + 4096 = first + 4096 * min (n + 1) (roomFor m first) := by
            rw [hsucc]
            omega
          rw [hbehind'] at hmove
          refine ⟨?_, _, hmove, by omega, Align.roundUp_of_dvd (by decide) hdvd, fun _ => rfl⟩
          rw [pageAt, if_pos (page_room_iff.mpr hlt), ← haddr, BitVec.ofNat_toNat,
            BitVec.setWidth_eq]

/-! ## The rings behind the pages -/

/-- The command ring: its 512 bytes are where the pool stands, or they do not fit any more and
the call returns an error. -/
theorem useBlock_layout {r : Ring} {block : Addr × Pool} (hplace : blockAt x 512 64 65536 = x)
    (h : Allocates m x 512 64 65536 block) :
    (m.limit < x + 512 ∧ (r.useBlock 32 block).1 = .kNoEnoughMemory) ∨
    (x + 512 ≤ m.limit ∧ ∃ r', r.useBlock 32 block = (.kSuccess, r', block.2) ∧
      r'.buf.toNat = x ∧ r'.bufSize = 32 ∧ block.2.At m (x + 512)) := by
  unfold Ring.useBlock
  cases h with
  | full hfull hnull _ =>
      rw [hplace] at hfull
      rw [if_pos hnull]
      exact Or.inl ⟨hfull, rfl⟩
  | block hfits hne haddr hat =>
      rw [hplace] at hfits haddr hat
      rw [if_neg hne]
      exact Or.inr ⟨hfits, _, rfl, haddr, rfl, hat⟩

/-- The segment table of the event ring, of 16 bytes, is placed at `x` if it fits and is refused
if it does not. -/
theorem useTable_layout {r : EventRing} {block : Addr × Pool}
    (hplace : blockAt x 16 64 65536 = x) (h : Allocates m x 16 64 65536 block) :
    (m.limit < x + 16 ∧ (r.useTable block).1 = .kNoEnoughMemory) ∨
    (x + 16 ≤ m.limit ∧ ∃ r', r.useTable block = (.kSuccess, r', block.2) ∧
      r'.buf = r.buf ∧ r'.bufSize = r.bufSize ∧ r'.erst.toNat = x) := by
  unfold EventRing.useTable
  cases h with
  | full hfull hnull _ =>
      rw [hplace] at hfull
      rw [if_pos hnull]
      exact Or.inl ⟨hfull, rfl⟩
  | block hfits hne haddr _ =>
      rw [hplace] at hfits haddr
      rw [if_neg hne]
      exact Or.inr ⟨hfits, _, rfl, rfl, rfl, haddr⟩

/-- The event ring and its segment table, 528 bytes from `x + 512` on: both are there, or the
call returns an error. -/
theorem eventRing_layout {r : EventRing} {block : Addr × Pool} (hx : 4096 ∣ x)
    (hbase : m.addr.toNat ≤ x) (hlow : x + 2 ^ 18 < 2 ^ 64)
    (h : Allocates m (x + 512) 512 64 65536 block) :
    (m.limit < x + 1040 ∧ (r.useBlock 32 block).1 = .kNoEnoughMemory) ∨
    (x + 1040 ≤ m.limit ∧ ∃ r' pool', r.useBlock 32 block = (.kSuccess, r', pool') ∧
      r'.buf.toNat = x + 512 ∧ r'.bufSize = 32 ∧ r'.erst.toNat = x + 1024) := by
  have hplace : blockAt (x + 512) 512 64 65536 = x + 512 :=
    blockAt_page hx (by decide) (by decide)
  have htable : blockAt (x + 1024) 16 64 65536 = x + 1024 :=
    blockAt_page hx (by decide) (by decide)
  unfold EventRing.useBlock
  cases h with
  | full hfull hnull _ =>
      rw [hplace] at hfull
      rw [if_pos hnull]
      exact Or.inl ⟨by omega, rfl⟩
  | block hfits hne haddr hat =>
      rw [hplace] at hfits haddr hat
      rw [if_neg hne]
      have hsecond : Allocates m (x + 1024) 16 64 65536
          (block.2.allocArray 16 1 64 (64 * 1024)) :=
        allocMem_allocates hat rfl rfl rfl powerOrZero_line powerOrZero_segment (by omega)
          (by omega)
      obtain ⟨block', hblock'⟩ : ∃ block', block.2.allocArray 16 1 64 (64 * 1024) = block' :=
        ⟨_, rfl⟩
      rw [hblock'] at hsecond ⊢
      rcases useTable_layout htable hsecond with
        ⟨hfull, hfail⟩ | ⟨hfits', r', hset, hbuf, hsize, herst⟩
      · exact Or.inl ⟨by omega, hfail⟩
      · exact Or.inr ⟨by omega, r', block'.2, hset, hbuf ▸ haddr, hsize, herst⟩

/-- **Both rings**, from a page boundary on: they take 1040 bytes, and a pool that ends before
them is reported. -/
theorem rings_layout (hw : PowerOn) {c : Controller} (writes : List RegisterWrite)
    (h : c.pool.At m x) (hx : 4096 ∣ x) (hbase : m.addr.toNat ≤ x) (hlow : x + 2 ^ 18 < 2 ^ 64) :
    (m.limit < x + 1040 ∧ ∃ c' writes', useCommandRing hw c writes (c.cr.initializeRing 32 c.pool) =
      (.kNoEnoughMemory, c', writes')) ∨
    (x + 1040 ≤ m.limit ∧ ∃ cr er pool writes',
      useCommandRing hw c writes (c.cr.initializeRing 32 c.pool) =
        (.kSuccess, { c with cr := cr, er := er, pool := pool }, writes') ∧
      cr.buf.toNat = x ∧ cr.bufSize = 32 ∧ er.buf.toNat = x + 512 ∧ er.bufSize = 32 ∧
      er.erst.toNat = x + 1024) := by
  have hplace : blockAt x 512 64 65536 = x := blockAt_page (d := 0) hx (by decide) (by decide)
  have hfirst : Allocates m x 512 64 65536
      (c.pool.allocArray 16 (BitVec.ofNat 64 32) 64 (64 * 1024)) :=
    allocMem_allocates h rfl rfl rfl powerOrZero_line powerOrZero_segment hbase (by omega)
  unfold Ring.initializeRing
  obtain ⟨block, hblock⟩ : ∃ block,
    c.pool.allocArray 16 (BitVec.ofNat 64 32) 64 (64 * 1024) = block := ⟨_, rfl⟩
  rw [hblock] at hfirst ⊢
  rcases useBlock_layout (r := c.cr) hplace hfirst with ⟨hfull, hfail⟩ |
    ⟨hfits, cr, hset, hbuf, hsize, hat⟩
  · unfold useCommandRing
    dsimp only
    rw [hfail, if_pos (by decide)]
    exact Or.inl ⟨by omega, _, _, rfl⟩
  · rw [hset]
    unfold useCommandRing
    dsimp only
    rw [if_neg (not_not.mpr rfl)]
    have hsecond : Allocates m (x + 512) 512 64 65536
        (block.2.allocArray 16 (BitVec.ofNat 64 32) 64 (64 * 1024)) :=
      allocMem_allocates hat rfl rfl rfl powerOrZero_line powerOrZero_segment (by omega) (by omega)
    unfold EventRing.initializeEventRing
    obtain ⟨block', hblock'⟩ : ∃ block',
      block.2.allocArray 16 (BitVec.ofNat 64 32) 64 (64 * 1024) = block' := ⟨_, rfl⟩
    rw [hblock'] at hsecond ⊢
    rcases eventRing_layout (r := c.er) hx hbase hlow hsecond with ⟨hfull, hfail⟩ |
      ⟨hfits', er, pool', hset', hbuf', hsize', herst⟩
    · unfold useEventRing
      dsimp only
      rw [hfail, if_pos (by decide)]
      exact Or.inl ⟨hfull, _, _, rfl⟩
    · rw [hset']
      unfold useEventRing
      dsimp only
      rw [if_neg (not_not.mpr rfl)]
      exact Or.inr ⟨hfits', cr, er, pool', _, rfl, hbuf, hsize, hbuf', hsize', herst⟩

/-! ## The outcome of the call -/

/-- The address of the command ring: behind the pages that fit. -/
def ringsAt (m : MemoryPool) (x n : Nat) : Nat :=
  firstPageAt x n + 4096 * min n (roomFor m (firstPageAt x n))

/-- The scratchpad array with its `n` pages is where it should be. -/
def HasScratchpad (m : MemoryPool) (x n : Nat) (c : Controller) : Prop :=
  ∃ array, c.scratchpad = some (array, (List.range n).map (pageAt m (firstPageAt x n))) ∧
    c.devmgr.deviceContextPointers 0 = array ∧ array ≠ nullptr ∧ array.toNat = scratchpadAt x n

/-- What a successful `Initialize` with `n` scratchpad buffers has put where. -/
structure LaidOut (m : MemoryPool) (x n : Nat) (c : Controller) : Prop where
  contexts : c.devmgr.contextArray.toNat = contextsAt x
  maxSlots : c.devmgr.maxSlots = kDeviceSize
  scratchpad : HasScratchpad m x n c
  cr : c.cr.buf.toNat = ringsAt m x n ∧ c.cr.bufSize = 32
  er : c.er.buf.toNat = ringsAt m x n + 512 ∧ c.er.bufSize = 32
  erst : c.er.erst.toNat = ringsAt m x n + 1024

/-- How `Initialize` ends with `n` scratchpad buffers, `alloc_ptr` being `x`. -/
inductive Outcome (m : MemoryPool) (x n : Nat) :
    Except Fault (Error × Controller × List RegisterWrite) → Prop
  /-- The arrays of the device manager do not fit. -/
  | noManager {c : Controller} {writes : List RegisterWrite}
      (hfull : m.limit < x + 72 ∨ m.limit < contextsAt x + 72) :
      Outcome m x n (.ok (.kNoEnoughMemory, c, writes))
  /-- The scratchpad array does not fit, and is written to at address null. -/
  | noArray (hfits : contextsAt x + 72 ≤ m.limit) (hfull : m.limit < scratchpadAt x n + 8 * n) :
      Outcome m x n (.error .nullDereference)
  /-- The rings do not fit. -/
  | noRings {c : Controller} {writes : List RegisterWrite}
      (hfits : scratchpadAt x n + 8 * n ≤ m.limit) (hfull : m.limit < ringsAt m x n + 1040) :
      Outcome m x n (.ok (.kNoEnoughMemory, c, writes))
  /-- The rings fit. -/
  | success {c : Controller} {writes : List RegisterWrite}
      (hfits : scratchpadAt x n + 8 * n ≤ m.limit) (hrings : ringsAt m x n + 1040 ≤ m.limit)
      (hlaid : LaidOut m x n c) :
      Outcome m x n (.ok (.kSuccess, c, writes))

/-- **The scratchpad step**: the array is placed behind the contexts and its pages from the next
page on, or the array is missing and is written to all the same. -/
theorem initializeScratchpad_layout {c : Controller} {n : Nat} (hn : 0 < n) (hsmall : n < 2 ^ 16)
    (h : c.pool.At m (contextsAt x + 72)) (hbase : m.addr.toNat ≤ contextsAt x + 72)
    (hin : contextsAt x + 72 ≤ m.limit) (hlow : m.limit + 2 ^ 20 < 2 ^ 64) :
    (m.limit < scratchpadAt x n + 8 * n ∧
      c.initializeScratchpad n = .error .nullDereference) ∨
    (scratchpadAt x n + 8 * n ≤ m.limit ∧ ∃ c', c.initializeScratchpad n = .ok c' ∧
      c'.pool.At m (ringsAt m x n) ∧ c'.devmgr.contextArray = c.devmgr.contextArray ∧
      c'.devmgr.maxSlots = c.devmgr.maxSlots ∧ HasScratchpad m x n c') := by
  have hsize : (8 * BitVec.ofNat 64 n).toNat = 8 * n := by
    have h8 : (8 : BitVec 64).toNat = 8 := rfl
    rw [BitVec.toNat_mul, BitVec.toNat_ofNat, h8]
    omega
  have harray : Allocates m (contextsAt x + 72) (8 * n) 64 4096
      (c.pool.allocArray 8 (BitVec.ofNat 64 n) 64 4096) :=
    allocMem_allocates h hsize rfl rfl powerOrZero_line powerOrZero_page hbase (by omega)
  obtain ⟨block, hblock⟩ : ∃ block, c.pool.allocArray 8 (BitVec.ofNat 64 n) 64 4096 = block :=
    ⟨_, rfl⟩
  have hbehind : contextsAt x + 72 ≤ scratchpadAt x n := le_blockAt _ _ _ _
  unfold initializeScratchpad
  rw [if_pos hn]
  rw [hblock] at harray ⊢
  unfold useScratchpadArray
  cases harray with
  | full hfull hnull _ =>
      rw [if_pos hnull]
      exact Or.inl ⟨hfull, rfl⟩
  | block hfits hne haddr hat =>
      rw [if_neg hne]
      change scratchpadAt x n + 8 * n ≤ m.limit at hfits
      change block.2.At m (scratchpadAt x n + 8 * n) at hat
      obtain ⟨hpages, z, hat', -, -, hz⟩ :=
        scratchpadPages_layout hat (by omega) hfits (by omega) n
      obtain ⟨placed, hplaced⟩ : ∃ placed, scratchpadPages block.2 n = placed := ⟨_, rfl⟩
      rw [hplaced] at hpages hat' ⊢
      rw [hz hn] at hat'
      have hpointer : Function.update c.devmgr.deviceContextPointers 0 block.1 0 = block.1 :=
        Function.update_self _ _ _
      refine Or.inr ⟨hfits, _, rfl, hat', rfl, rfl, block.1, ?_, hpointer, hne, haddr⟩
      rw [hpages]
      rfl

/-- The end of the call, with all pages placed: the rings fit and it succeeds, or it reports
that they do not. -/
theorem useCommandRing_outcome {n : Nat} (hw : PowerOn) {c : Controller}
    (writes : List RegisterWrite) (h : c.pool.At m (ringsAt m x n))
    (hbase : m.addr.toNat ≤ contextsAt x) (hlow : m.limit + 2 ^ 20 < 2 ^ 64)
    (hfits : scratchpadAt x n + 8 * n ≤ m.limit)
    (hcontexts : c.devmgr.contextArray.toNat = contextsAt x)
    (hmax : c.devmgr.maxSlots = kDeviceSize) (hscratchpad : HasScratchpad m x n c) :
    Outcome m x n (.ok (useCommandRing hw c writes (c.cr.initializeRing 32 c.pool))) := by
  have hdvd : 4096 ∣ ringsAt m x n :=
    Nat.dvd_add (Align.dvd_roundUp _ _) (Nat.dvd_mul_right _ _)
  have hbehind : contextsAt x + 72 ≤ scratchpadAt x n := le_blockAt _ _ _ _
  have hfirst : scratchpadAt x n + 8 * n ≤ firstPageAt x n := Align.le_roundUp (by decide)
  have hahead : firstPageAt x n < scratchpadAt x n + 8 * n + 4096 := Align.roundUp_lt (by decide)
  have hrings : firstPageAt x n ≤ ringsAt m x n := Nat.le_add_right _ _
  have hroom : ringsAt m x n ≤ m.limit + 4096 := by
    unfold ringsAt roomFor
    omega
  rcases rings_layout hw writes h hdvd (by omega) (by omega) with
    ⟨hfull, c', writes', hresult⟩ |
    ⟨hfits', cr, er, pool, writes', hresult, hcr, hcrSize, her, herSize, herst⟩
  · rw [hresult]
    exact .noRings hfits hfull
  · rw [hresult]
    exact .success hfits hfits'
      ⟨hcontexts, hmax, hscratchpad, ⟨hcr, hcrSize⟩, ⟨her, herSize⟩, herst⟩

/-- **All of `Initialize`**, if the controller asks for scratchpad buffers and the handshakes
end: one of four outcomes, by how much room the pool has. -/
theorem initializeController_outcome {hw : PowerOn} {c : Controller} (h : c.pool.At m x)
    (hbase : m.addr.toNat ≤ x) (hin : x ≤ m.limit) (hlow : m.limit + 2 ^ 20 < 2 ^ 64)
    (hends : hw.handshakesEnd = true) (hn : 0 < maxScratchpadBuffers hw.hcsparams2) :
    Outcome m x (maxScratchpadBuffers hw.hcsparams2) (initializeController hw c) := by
  have hsmall : maxScratchpadBuffers hw.hcsparams2 < 2 ^ 16 := BitVec.isLt _
  unfold initializeController
  obtain ⟨result, hresult⟩ : ∃ result,
    DeviceManager.initializeManager kDeviceSize c.pool = result := ⟨_, rfl⟩
  have hmanager := initializeManager_layout h hbase (by omega) hresult
  rw [hresult]
  obtain ⟨err, devmgr, pool⟩ := result
  unfold useDeviceManager
  dsimp only at hmanager ⊢
  generalize maxScratchpadBuffers hw.hcsparams2 = n at *
  rcases hmanager with ⟨rfl, hfull⟩ | ⟨rfl, -, hcontexts, haddr, hmax, hat⟩
  · rw [if_pos (by decide)]
    exact .noManager hfull
  · rw [if_neg (not_not.mpr rfl), if_pos hends]
    have hbehind : x + 72 ≤ contextsAt x := le_blockAt _ _ _ _
    have hscratchpad := initializeScratchpad_layout
      (c := { c with devmgr := devmgr, pool := pool }) hn hsmall hat (by omega) hcontexts hlow
    rcases hscratchpad with ⟨hfull, hnull⟩ | ⟨hfits, c₁, hset, hat₁, hsame, hsameMax, hhas⟩
    · rw [hnull]
      exact .noArray hcontexts hfull
    · rw [hset]
      exact useCommandRing_outcome hw _ hat₁ (by omega) hlow hfits (hsame ▸ haddr)
        (hsameMax.trans hmax) hhas

end Layout

/-! ## Complete arrays -/

/-- The bytes of the page at `p`. -/
def pageBlock (p : Addr) : Block := ⟨p.toNat, 4096⟩

/-- The structures that the controller reads besides the pages: the DCBAA, the scratchpad
array of `n` pointers, the command ring, the event ring and its segment table. -/
def structures (c : Controller) (n : Nat) (array : Addr) : List Block :=
  [⟨c.devmgr.contextArray.toNat, 8 * (c.devmgr.maxSlots + 1)⟩, ⟨array.toNat, 8 * n⟩,
    ⟨c.cr.buf.toNat, 16 * c.cr.bufSize⟩, ⟨c.er.buf.toNat, 16 * c.er.bufSize⟩,
    ⟨c.er.erst.toNat, 16⟩]

/-- Entry 0 of the DCBAA points to an array of `n` pages in the pool `m`. -/
structure ScratchpadComplete (m : MemoryPool) (c : Controller) (n : Nat) (array : Addr)
    (pages : List Addr) : Prop where
  scratchpad : c.scratchpad = some (array, pages)
  pointer : c.devmgr.deviceContextPointers 0 = array
  array_ne : array ≠ nullptr
  length : pages.length = n
  page_ne : ∀ p ∈ pages, p ≠ nullptr
  aligned : ∀ p ∈ pages, 4096 ∣ p.toNat
  inside : ∀ p ∈ pages, m.addr.toNat ≤ p.toNat ∧ p.toNat + 4096 ≤ m.limit
  apart : pages.Pairwise fun p q => Disjoint (pageBlock p).bytes (pageBlock q).bytes
  others : ∀ p ∈ pages, ∀ b ∈ structures c n array, Disjoint b.bytes (pageBlock p).bytes

/-- The scratchpad array and its pages fit into the pool. -/
def ScratchpadFits (m : MemoryPool) (x n : Nat) : Prop :=
  n = 0 ∨ scratchpadAt x n + 8 * n ≤ m.limit ∧ firstPageAt x n + 4096 * n ≤ m.limit

instance (m : MemoryPool) (x n : Nat) : Decidable (ScratchpadFits m x n) :=
  inferInstanceAs (Decidable (_ ∨ _ ∧ _))

section Complete

variable {m : MemoryPool} {x n : Nat} {c : Controller}

/-- **When the scratchpad fits**: the array does, and the pages behind it do. -/
theorem scratchpadFits_iff (hn : 0 < n) :
    ScratchpadFits m x n ↔
      scratchpadAt x n + 8 * n ≤ m.limit ∧ n ≤ roomFor m (firstPageAt x n) := by
  unfold ScratchpadFits roomFor
  omega

/-- A page that there is room for lies at its place, whole in the pool. -/
theorem pageAt_eq {first i : Nat} (h : i < roomFor m first) :
    (pageAt m first i).toNat = first + 4096 * i ∧ first + 4096 * i + 4096 ≤ m.limit := by
  have hfits := page_room_iff.mpr h
  have hlow : m.limit < 2 ^ 64 := m.fits
  refine ⟨?_, hfits⟩
  rw [pageAt, if_pos hfits, BitVec.toNat_ofNat]
  exact Nat.mod_eq_of_lt (by omega)

/-- **If all pages fit**, a successful call has placed a complete array: every page in the pool,
aligned, apart from the others and in the array. -/
theorem LaidOut.complete (h : LaidOut m x n c) (hbase : m.addr.toNat ≤ x)
    (hroom : n ≤ roomFor m (firstPageAt x n)) :
    ∃ array pages, ScratchpadComplete m c n array pages := by
  obtain ⟨array, hscratchpad, hpointer, hne, harray⟩ := h.scratchpad
  have hcontexts : x + 72 ≤ contextsAt x := le_blockAt _ _ _ _
  have hbehind : contextsAt x + 72 ≤ scratchpadAt x n := le_blockAt _ _ _ _
  have hfirst : scratchpadAt x n + 8 * n ≤ firstPageAt x n := Align.le_roundUp (by decide)
  have hdvd : 4096 ∣ firstPageAt x n := Align.dvd_roundUp _ _
  have hrings : ringsAt m x n = firstPageAt x n + 4096 * n := by
    unfold ringsAt
    rw [Nat.min_eq_left hroom]
  generalize hpages : (List.range n).map (pageAt m (firstPageAt x n)) = pages at hscratchpad
  have hpage : ∀ p ∈ pages, ∃ i, i < n ∧ p.toNat = firstPageAt x n + 4096 * i ∧
      p.toNat + 4096 ≤ m.limit := by
    intro p hp
    rw [← hpages] at hp
    obtain ⟨i, hi, rfl⟩ := List.mem_map.mp hp
    have hlt : i < n := List.mem_range.mp hi
    obtain ⟨haddr, hfits⟩ := pageAt_eq (Nat.lt_of_lt_of_le hlt hroom)
    exact ⟨i, hlt, haddr, by omega⟩
  refine ⟨array, pages, ?_⟩
  constructor
  case scratchpad => exact hscratchpad
  case pointer => exact hpointer
  case array_ne => exact hne
  case length => rw [← hpages, List.length_map, List.length_range]
  case page_ne =>
    rintro p hp rfl
    obtain ⟨i, -, haddr, -⟩ := hpage _ hp
    have hzero : (nullptr : Addr).toNat = 0 := rfl
    omega
  case aligned =>
    intro p hp
    obtain ⟨i, -, haddr, -⟩ := hpage p hp
    rw [haddr]
    exact Nat.dvd_add hdvd (Nat.dvd_mul_right _ _)
  case inside =>
    intro p hp
    obtain ⟨i, -, haddr, hlimit⟩ := hpage p hp
    exact ⟨by omega, hlimit⟩
  case apart =>
    rw [← hpages, List.pairwise_map]
    refine List.Pairwise.imp_of_mem ?_ List.pairwise_lt_range
    intro i j hi hj hlt
    obtain ⟨hi, -⟩ := pageAt_eq (Nat.lt_of_lt_of_le (List.mem_range.mp hi) hroom)
    obtain ⟨hj, -⟩ := pageAt_eq (Nat.lt_of_lt_of_le (List.mem_range.mp hj) hroom)
    generalize pageAt m (firstPageAt x n) i = p at hi ⊢
    generalize pageAt m (firstPageAt x n) j = q at hj ⊢
    have hnext : p.toNat + 4096 ≤ q.toNat := by omega
    exact Block.disjoint_of_le hnext (Nat.le_refl _)
  case others =>
    intro p hp b hb
    obtain ⟨i, hi, haddr, -⟩ := hpage p hp
    have hbefore : ∀ {addr size : Nat}, addr + size ≤ firstPageAt x n →
        Disjoint (Block.bytes ⟨addr, size⟩) (pageBlock p).bytes := by
      intro addr size hle
      have hstart : firstPageAt x n ≤ p.toNat := by omega
      exact Block.disjoint_of_le hle hstart
    have hafter : ∀ {addr size : Nat}, ringsAt m x n ≤ addr →
        Disjoint (Block.bytes ⟨addr, size⟩) (pageBlock p).bytes := by
      intro addr size hle
      refine (Block.disjoint_of_le (q := ringsAt m x n) ?_ hle).symm
      change p.toNat + 4096 ≤ _
      omega
    unfold structures at hb
    simp only [List.mem_cons, List.not_mem_nil, or_false] at hb
    rcases hb with rfl | rfl | rfl | rfl | rfl
    · refine hbefore ?_
      rw [h.contexts, h.maxSlots]
      unfold kDeviceSize
      omega
    · exact hbefore (by omega)
    · refine hafter ?_
      rw [h.cr.1]
    · refine hafter ?_
      rw [h.er.1]
      exact Nat.le_add_right _ _
    · refine hafter ?_
      rw [h.erst]
      exact Nat.le_add_right _ _

/-- If not all of the pages fit, a successful call has placed null pointers in the array, so it
is not complete. -/
theorem LaidOut.incomplete (h : LaidOut m x n c) (hroom : roomFor m (firstPageAt x n) < n) :
    ¬ ∃ array pages, ScratchpadComplete m c n array pages := by
  rintro ⟨array, pages, hcomplete⟩
  obtain ⟨array', hscratchpad, -⟩ := h.scratchpad
  have hsame := hcomplete.scratchpad.symm.trans hscratchpad
  cases hsame
  have hmem : pageAt m (firstPageAt x n) (n - 1) ∈
      (List.range n).map (pageAt m (firstPageAt x n)) :=
    List.mem_map_of_mem (List.mem_range.mpr (by omega))
  refine hcomplete.page_ne _ hmem ?_
  rw [pageAt, if_neg]
  rw [page_room_iff]
  omega

/-- Behind the last page that fits, the rings find what is left of a page. -/
theorem rings_full_iff (hroom : roomFor m (firstPageAt x n) < n) :
    m.limit < ringsAt m x n + 1040 ↔
      m.limit < firstPageAt x n ∨ m.addr.toNat % 4096 < 1040 := by
  have hdvd : 4096 ∣ firstPageAt x n := Align.dvd_roundUp _ _
  have hlimit : m.limit = m.addr.toNat + 4096 * 32 := rfl
  unfold ringsAt
  rw [Nat.min_eq_right (Nat.le_of_lt hroom)]
  unfold roomFor
  omega

end Complete

/-! ## The guarantee -/

/-- What `Initialize` should guarantee: when it succeeds, the scratchpad array is complete,
and when the array does not fit, it returns an error. -/
structure ScratchpadGuarantee (hw : PowerOn) (c : Controller) : Prop where
  complete : ∀ c' writes, initializeController hw c = .ok (.kSuccess, c', writes) →
    0 < maxScratchpadBuffers hw.hcsparams2 →
    ∃ array pages, ScratchpadComplete c.pool.memoryPool c'
      (maxScratchpadBuffers hw.hcsparams2) array pages
  reported : hw.handshakesEnd = true →
    ¬ ScratchpadFits c.pool.memoryPool c.pool.allocPtr.toNat
      (maxScratchpadBuffers hw.hcsparams2) →
    ∃ err c' writes, initializeController hw c = .ok (err, c', writes) ∧ err ≠ .kSuccess

/-- That the array does not fit shows in a request that is tested: there is no room for the
device manager, or none for the rings behind the pages. -/
def ShortageSeen (m : MemoryPool) (x n : Nat) : Prop :=
  m.limit < x + 72 ∨ m.limit < contextsAt x + 72 ∨
    scratchpadAt x n + 8 * n ≤ m.limit ∧
      (m.limit < firstPageAt x n ∨ m.addr.toNat % 4096 < 1040)

instance (m : MemoryPool) (x n : Nat) : Decidable (ShortageSeen m x n) :=
  inferInstanceAs (Decidable (_ ∨ _ ∨ _ ∧ _))

/-- A call that succeeds has come through the handshakes, so their ending need not be assumed.
-/
theorem initializeController_ends {hw : PowerOn} {c c' : Controller} {writes : List RegisterWrite}
    (h : initializeController hw c = .ok (.kSuccess, c', writes)) : hw.handshakesEnd = true := by
  unfold initializeController at h
  generalize DeviceManager.initializeManager kDeviceSize c.pool = result at h
  obtain ⟨err, devmgr, pool⟩ := result
  unfold useDeviceManager at h
  dsimp only at h
  split at h
  · rename_i hne
    cases h
    exact absurd rfl hne
  · split at h
    · assumption
    · cases h

/-- **Each outcome** is one that the guarantee allows, or one of a shortage that is not seen:
null pages, or an array written at null. -/
theorem Outcome.guarantee_iff {m : MemoryPool} {x n : Nat}
    {result : Except Fault (Error × Controller × List RegisterWrite)} (h : Outcome m x n result)
    (hn : 0 < n) (hbase : m.addr.toNat ≤ x) :
    ((∀ c' writes, result = .ok (.kSuccess, c', writes) →
        ∃ array pages, ScratchpadComplete m c' n array pages) ∧
      (¬ ScratchpadFits m x n →
        ∃ err c' writes, result = .ok (err, c', writes) ∧ err ≠ .kSuccess)) ↔
      ScratchpadFits m x n ∨ ShortageSeen m x n := by
  have hfitsIff := scratchpadFits_iff (m := m) (x := x) hn
  cases h with
  | noManager hfull =>
      constructor
      · intro _
        rcases hfull with hfull | hfull
        · exact Or.inr (Or.inl hfull)
        · exact Or.inr (Or.inr (Or.inl hfull))
      · intro _
        exact ⟨fun _ _ hresult => (by cases hresult), fun _ => ⟨_, _, _, rfl, by decide⟩⟩
  | noArray hfits hfull =>
      have hbehind : x + 72 ≤ contextsAt x := le_blockAt _ _ _ _
      have hnot : ¬ ScratchpadFits m x n := fun h => by
        have hle := (hfitsIff.mp h).1
        omega
      constructor
      · rintro ⟨-, hreported⟩
        obtain ⟨err, c', writes, hresult, -⟩ := hreported hnot
        cases hresult
      · rintro (hfits' | hfull' | hfull' | ⟨hle, -⟩)
        · exact absurd hfits' hnot
        · omega
        · omega
        · omega
  | noRings hfits hfull =>
      constructor
      · intro _
        rcases Nat.lt_or_ge (roomFor m (firstPageAt x n)) n with hroom | hroom
        · exact Or.inr (Or.inr (Or.inr ⟨hfits, (rings_full_iff hroom).mp hfull⟩))
        · exact Or.inl (hfitsIff.mpr ⟨hfits, hroom⟩)
      · intro _
        exact ⟨fun _ _ hresult => (by cases hresult), fun _ => ⟨_, _, _, rfl, by decide⟩⟩
  | @success c writes hfits hrings hlaid =>
      have hcontexts : x + 72 ≤ contextsAt x := le_blockAt _ _ _ _
      have hbehind : contextsAt x + 72 ≤ scratchpadAt x n := le_blockAt _ _ _ _
      rcases Nat.lt_or_ge (roomFor m (firstPageAt x n)) n with hroom | hroom
      · -- Some page is null.
        have hnot : ¬ ScratchpadFits m x n := fun h => by
          have hle := (hfitsIff.mp h).2
          omega
        constructor
        · rintro ⟨hcomplete, -⟩
          exact absurd (hcomplete c writes rfl) (hlaid.incomplete hroom)
        · rintro (hfits' | hfull' | hfull' | ⟨-, hfull'⟩)
          · exact absurd hfits' hnot
          · omega
          · omega
          · have hfull := (rings_full_iff hroom).mpr hfull'
            omega
      · have hall : ScratchpadFits m x n := hfitsIff.mpr ⟨hfits, hroom⟩
        refine ⟨fun _ => Or.inl hall, fun _ => ⟨?_, fun hnot => absurd hall hnot⟩⟩
        intro c' writes' hresult
        cases hresult
        exact hlaid.complete hbase hroom

/-- **When the scratchpad buffers are complete on success**, for every HCSPARAMS2 value and
every `alloc_ptr` in the pool: if the handshakes do not end, if everything fits, or if the
shortage shows in a request that is tested. -/
theorem scratchpad_guarantee_iff {hw : PowerOn} {c : Controller}
    (hbase : c.pool.memoryPool.addr.toNat ≤ c.pool.allocPtr.toNat)
    (hin : c.pool.allocPtr.toNat ≤ c.pool.memoryPool.limit)
    (hlow : c.pool.memoryPool.limit + 2 ^ 20 < 2 ^ 64) :
    ScratchpadGuarantee hw c ↔
      hw.handshakesEnd = false ∨
      ScratchpadFits c.pool.memoryPool c.pool.allocPtr.toNat
        (maxScratchpadBuffers hw.hcsparams2) ∨
      ShortageSeen c.pool.memoryPool c.pool.allocPtr.toNat
        (maxScratchpadBuffers hw.hcsparams2) := by
  cases hends : hw.handshakesEnd with
  | false =>
      refine ⟨fun _ => Or.inl rfl, fun _ => ⟨fun c' writes h => ?_, fun htrue => ?_⟩⟩
      · rw [initializeController_ends h] at hends
        cases hends
      · rw [hends] at htrue
        cases htrue
  | true =>
      rcases Nat.eq_zero_or_pos (maxScratchpadBuffers hw.hcsparams2) with hzero | hn
      · -- The controller asks for no buffers.
        have hfits : ScratchpadFits c.pool.memoryPool c.pool.allocPtr.toNat
            (maxScratchpadBuffers hw.hcsparams2) := Or.inl hzero
        refine ⟨fun _ => Or.inr (Or.inl hfits), fun _ => ⟨fun c' writes _ hpos => ?_, ?_⟩⟩
        · omega
        · exact fun _ hnot => absurd hfits hnot
      · have houtcome := (initializeController_outcome ⟨rfl, rfl⟩ hbase hin hlow hends hn)
        have hiff := houtcome.guarantee_iff hn hbase
        constructor
        · intro h
          exact Or.inr (hiff.mp ⟨fun c' writes hcall => h.complete c' writes hcall hn,
            h.reported hends⟩)
        · rintro (hfalse | hcondition)
          · cases hfalse
          · obtain ⟨hcomplete, hreported⟩ := hiff.mpr hcondition
            exact ⟨fun c' writes hcall _ => hcomplete c' writes hcall, fun _ => hreported⟩

/-- The registers of a controller that asks for 32 buffers. -/
def asksForThirtyTwo : PowerOn := { samplePowerOn with hcsparams2 := 0x200000 }

/-- The sample pool has room for 31 pages behind the arrays, so 32 do not fit, and what is
left of the last page is too small for the rings. -/
theorem scratchpad_guarantee_iff_sample : ScratchpadGuarantee asksForThirtyTwo sampleNew := by
  refine (scratchpad_guarantee_iff ?_ ?_ ?_).mpr (Or.inr (Or.inr ?_))
  · decide
  · decide
  · decide
  · decide

/-- A pool that begins 0x440 bytes behind a page boundary. -/
def shiftedPool : MemoryPool := ⟨0x200440, by decide, by decide, by decide⟩

/-- **A page is missing**: in the shifted pool the rings fit behind page 31, and `Initialize`
succeeds with a null pointer for page 32. -/
theorem scratchpad_page_missing :
    returns (initializeController asksForThirtyTwo (Controller.new 3 (Pool.init shiftedPool)))
      (fun result => result.1 == .kSuccess && result.2.1.scratchpad.any
        fun scratchpad => scratchpad.2.length == 32 && scratchpad.2.contains nullptr) = true ∧
    ¬ ScratchpadGuarantee asksForThirtyTwo (Controller.new 3 (Pool.init shiftedPool)) := by
  have hreturns : returns
      (initializeController asksForThirtyTwo (Controller.new 3 (Pool.init shiftedPool)))
      (fun result => result.1 == .kSuccess && result.2.1.scratchpad.any
        fun scratchpad => scratchpad.2.length == 32 && scratchpad.2.contains nullptr) = true := by
    decide +kernel
  refine ⟨hreturns, fun h => ?_⟩
  obtain ⟨⟨err, c, writes⟩, hcall, htest⟩ := exists_of_returns hreturns
  simp only [Bool.and_eq_true, beq_iff_eq, Option.any_eq_true] at htest
  obtain ⟨rfl, ⟨array, pages⟩, hscratchpad, -, hnull⟩ := htest
  obtain ⟨array', pages', hcomplete⟩ := h.complete c writes hcall (by decide)
  have hsame := hcomplete.scratchpad.symm.trans hscratchpad
  cases hsame
  exact hcomplete.page_ne nullptr (List.contains_iff_mem.mp hnull) rfl

end Mikanos.Xhci.Controller
