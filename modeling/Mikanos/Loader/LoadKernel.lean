import Mikanos.Loader.Elf

/-!
# Copying the segments

`UefiMain` allocates the pages of the load address range and copies every
loadable segment to its place, the rest of the segment being cleared.  The
firmware's part, `CopyMem`, `SetMem` and `AllocatePages`, is a parameter
(`Uefi`) with its documented behaviour (`Uefi.Documented`).

`CopyLoadSegments` reads the program headers anew in every round, from a memory
it is writing to.  `Copied` is what carries it: the segments seen so far are in
place and nothing else has changed, so that the file, which no segment
overlaps, is still what it was.
-/

namespace Mikanos.Loader

/-- What the loader uses of the firmware and its libraries. -/
structure Uefi where
  /-- The memory after `CopyMem(destination, source, length)`. -/
  copyMem : Addr → Addr → BitVec 64 → ByteMemory → ByteMemory
  /-- The memory after `SetMem(buffer, length, value)`. -/
  setMem : Addr → BitVec 64 → BitVec 8 → ByteMemory → ByteMemory
  /-- The pages `AllocatePages(AllocateAddress, EfiLoaderData, pages, &address)`
  allocates; `none` for an error status. -/
  allocatePages : Addr → BitVec 64 → Option ByteRange

/-- `EFI_PAGE_SIZE`. -/
def pageSize : Nat := 0x1000

/-- The documented behaviour, for blocks that end within the address space. -/
structure Uefi.Documented (u : Uefi) : Prop where
  copyMem : ∀ destination source length memory,
    (⟨destination, length.toNat⟩ : ByteRange).Fits → (⟨source, length.toNat⟩ : ByteRange).Fits →
      u.copyMem destination source length memory
        = memory.copy destination source length.toNat
  setMem : ∀ buffer length value memory, (⟨buffer, length.toNat⟩ : ByteRange).Fits →
    u.setMem buffer length value memory = memory.fill buffer length.toNat value
  allocatePages : ∀ address pages allocated, u.allocatePages address pages = some allocated →
    allocated = ⟨address, pageSize * pages.toNat⟩

section Source

variable (u : Uefi)

/-- One round of the loop of `CopyLoadSegments`: the blocks written to and the
memory after it. -/
def copySegment (ehdr phdr : Addr) (i : Nat) (memory : ByteMemory) :
    List ByteRange × ByteMemory :=
  let h := phdrAt memory phdr i
  if h.pType ≠ PT_LOAD then ([], memory)
  else
    let segmInFile := ehdr + h.pOffset
    let copied := u.copyMem h.pVaddr segmInFile h.pFilesz memory
    -- the header is read again, from the memory with the copied bytes
    let h' := phdrAt copied phdr i
    let remainBytes := h'.pMemsz - h'.pFilesz
    let cleared := u.setMem (h'.pVaddr + h'.pFilesz) remainBytes 0 copied
    ([⟨h.pVaddr, h.pFilesz.toNat⟩, ⟨h'.pVaddr + h'.pFilesz, remainBytes.toNat⟩], cleared)

/-- The loop of `CopyLoadSegments` from `i` on, with at most `left` rounds to
go.  The counter is an `Elf64_Half` and stays below `e_phnum`. -/
def copySegmentsFrom (ehdr phdr : Addr) : Nat → Nat → ByteMemory → List ByteRange × ByteMemory
  | 0, _, memory => ([], memory)
  | left + 1, i, memory =>
      if i < (ePhnum memory ehdr).toNat then
        let (blocks, memory) := copySegment u ehdr phdr i memory
        let (rest, memory) := copySegmentsFrom ehdr phdr left (i + 1) memory
        (blocks ++ rest, memory)
      else ([], memory)

/-- `CopyLoadSegments(ehdr)`. -/
def copyLoadSegments (ehdr : Addr) (memory : ByteMemory) : List ByteRange × ByteMemory :=
  copySegmentsFrom u ehdr (ehdr + ePhoff memory ehdr) (2 ^ 16 - 1) 0 memory

/-- `num_pages` of `UefiMain`. -/
def numPagesOf (range : Addr × Addr) : BitVec 64 := (range.2 - range.1 + 0xfff) / 0x1000

/-- What `UefiMain` computes between reading the file and leaving the boot
services. -/
structure KernelLoad where
  first : Addr
  last : Addr
  numPages : BitVec 64
  pages : ByteRange
  written : List ByteRange
  memory : ByteMemory

/-- `UefiMain` from `CalcLoadAddressRange` to `CopyLoadSegments`; `none` where
it halts. -/
def loadKernel (ehdr : Addr) (memory : ByteMemory) : Option KernelLoad :=
  let range := calcLoadAddressRange memory ehdr
  let numPages := numPagesOf range
  match u.allocatePages range.1 numPages with
  | none => none
  | some pages =>
      let copied := copyLoadSegments u ehdr memory
      some ⟨range.1, range.2, numPages, pages, copied.1, copied.2⟩

end Source

/-! ## One segment -/

variable {u : Uefi} {memory₀ memory : ByteMemory} {ehdr : Addr} {size : Nat}

/-- The segment is in place: its file bytes, and zeros behind them. -/
structure InPlace (memory₀ : ByteMemory) (ehdr : Addr) (h : Elf64Phdr) (memory : ByteMemory) :
    Prop where
  file : ∀ k < h.pFilesz.toNat, memory (h.pVaddr + BitVec.ofNat 64 k)
    = memory₀ (ehdr + h.pOffset + BitVec.ofNat 64 k)
  zero : ∀ k, h.pFilesz.toNat ≤ k → k < h.pMemsz.toNat →
    memory (h.pVaddr + BitVec.ofNat 64 k) = 0

/-- The memories agree on the buffer with the file. -/
def SameFile (ehdr : Addr) (size : Nat) (memory₀ memory : ByteMemory) : Prop :=
  ∀ x, (⟨ehdr, size⟩ : ByteRange).Contains x → memory x = memory₀ x

/-- A number in the file is read the same as before, as long as the bytes of the file in the
buffer are the same. -/
theorem SameFile.load (hsame : SameFile ehdr size memory₀ memory)
    (hfits : (⟨ehdr, size⟩ : ByteRange).Fits) {start n : Nat} (hin : start + n ≤ size) :
    memory.load n (ehdr + BitVec.ofNat 64 start) =
      memory₀.load n (ehdr + BitVec.ofNat 64 start) := by
  rcases Nat.eq_zero_or_pos n with rfl | hpos
  · rfl
  · have hlt : ehdr.toNat + start < 2 ^ 64 := by
      unfold ByteRange.Fits at hfits
      simp only at hfits
      omega
    apply ByteMemory.load_congr
    · unfold ByteRange.Fits at *
      simp only at *
      rw [ByteRange.toNat_add hlt]
      omega
    · intro x hx
      exact hsame x (ByteRange.contains_of_add hfits hin hx)

/-- The file in the buffer is still what it was, header by header, so a later round of the loop
reads what the first would have read. -/
theorem SameFile.header (hsame : SameFile ehdr size memory₀ memory)
    (h : LoadableImage memory₀ ehdr size) {i : Nat}
    (hi : i < (Loader.ePhnum memory₀ ehdr).toNat) :
    phdrAt memory (ehdr + ePhoff memory₀ ehdr) i = Loader.header memory₀ ehdr i := by
  have hin : (ePhoff memory₀ ehdr).toNat + sizeofPhdr * i + sizeofPhdr ≤ size := by
    have htable := h.table
    have hnext : sizeofPhdr * (i + 1) ≤ sizeofPhdr * (Loader.ePhnum memory₀ ehdr).toNat :=
      Nat.mul_le_mul_left _ hi
    rw [Nat.mul_succ] at hnext
    omega
  have haddr : ∀ c, phdrAddr (ehdr + ePhoff memory₀ ehdr) i + BitVec.ofNat 64 c
      = ehdr + BitVec.ofNat 64 ((ePhoff memory₀ ehdr).toNat + sizeofPhdr * i + c) := by
    intro c
    rw [phdrAddr, BitVec.ofNat_add, BitVec.ofNat_add, BitVec.ofNat_toNat, BitVec.setWidth_eq]
    simp only [BitVec.add_assoc]
  have hfield : ∀ n c, n + c ≤ sizeofPhdr →
      memory.load n (phdrAddr (ehdr + ePhoff memory₀ ehdr) i + BitVec.ofNat 64 c)
        = memory₀.load n (phdrAddr (ehdr + ePhoff memory₀ ehdr) i + BitVec.ofNat 64 c) := by
    intro n c hc
    rw [haddr c]
    exact hsame.load h.buffer (by omega)
  have hphdr : sizeofPhdr = 56 := rfl
  have hstart : phdrAddr (ehdr + ePhoff memory₀ ehdr) i + BitVec.ofNat 64 0
      = phdrAddr (ehdr + ePhoff memory₀ ehdr) i := BitVec.add_zero _
  have htype := hfield 4 0 (by omega)
  rw [hstart] at htype
  rw [Loader.header, phdrAt, phdrAt, htype]
  exact congr (congr (congr (congrArg _ (hfield 8 8 (by omega))) (hfield 8 16 (by omega)))
    (hfield 8 32 (by omega))) (hfield 8 40 (by omega))

/-- The number of program headers can be read while the kernel is copied, for the file stays
where it is. -/
theorem SameFile.ePhnum (hsame : SameFile ehdr size memory₀ memory)
    (h : LoadableImage memory₀ ehdr size) :
    Loader.ePhnum memory ehdr = Loader.ePhnum memory₀ ehdr := by
  have hsize := h.fileHeader
  have hehdr : sizeofEhdr = 64 := rfl
  exact @SameFile.load memory₀ memory ehdr size hsame h.buffer 56 2 (by omega)

/-- A header that is not of a loadable segment is passed over. -/
theorem copySegment_skip (hsame : SameFile ehdr size memory₀ memory)
    (h : LoadableImage memory₀ ehdr size) {i : Nat} (hi : i < (Loader.ePhnum memory₀ ehdr).toNat)
    (hload : ¬ IsLoad memory₀ ehdr i) :
    copySegment u ehdr (ehdr + ePhoff memory₀ ehdr) i memory = ([], memory) := by
  have htype : (Loader.header memory₀ ehdr i).pType ≠ PT_LOAD := fun ht => hload ⟨hi, ht⟩
  rw [copySegment]
  simp only [hsame.header h hi]
  exact if_pos htype

/-- The two blocks a round writes to: the bytes from the file, and the zeros
behind them. -/
structure Blocks (h : Elf64Phdr) : Prop where
  copyFits : (⟨h.pVaddr, h.pFilesz.toNat⟩ : ByteRange).Fits
  fillFits : (⟨h.pVaddr + h.pFilesz, (h.pMemsz - h.pFilesz).toNat⟩ : ByteRange).Fits
  copyIn : ∀ x, (⟨h.pVaddr, h.pFilesz.toNat⟩ : ByteRange).Contains x → h.segment.Contains x
  fill_iff : ∀ x, (⟨h.pVaddr + h.pFilesz, (h.pMemsz - h.pFilesz).toNat⟩ : ByteRange).Contains x ↔
    h.pVaddr.toNat + h.pFilesz.toNat ≤ x.toNat ∧ x.toNat < h.pVaddr.toNat + h.pMemsz.toNat

/-- The two blocks of a segment: what is copied from the file, and the rest of its memory, which
is cleared. They follow each other and fill the segment. -/
theorem blocks {ph : Elf64Phdr} (hle : ph.pFilesz.toNat ≤ ph.pMemsz.toNat)
    (hspace : ph.pVaddr.toNat + ph.pMemsz.toNat < 2 ^ 64) : Blocks ph := by
  have hrest : (ph.pMemsz - ph.pFilesz).toNat = ph.pMemsz.toNat - ph.pFilesz.toNat :=
    BitVec.toNat_sub_of_le hle
  have hend : (ph.pVaddr + ph.pFilesz).toNat = ph.pVaddr.toNat + ph.pFilesz.toNat := by
    rw [BitVec.toNat_add, Nat.mod_eq_of_lt (by omega)]
  constructor
  case copyFits =>
    unfold ByteRange.Fits
    simp only
    omega
  case fillFits =>
    unfold ByteRange.Fits
    simp only [hend, hrest]
    omega
  case copyIn =>
    intro x hx
    unfold ByteRange.Contains Elf64Phdr.segment at *
    simp only at *
    omega
  case fill_iff =>
    intro x
    unfold ByteRange.Contains
    simp only [hend, hrest]
    omega

/-- The cleared rest lies in the segment. -/
theorem Blocks.fillIn {ph : Elf64Phdr} (h : Blocks ph) (x : Addr)
    (hx : (⟨ph.pVaddr + ph.pFilesz, (ph.pMemsz - ph.pFilesz).toNat⟩ : ByteRange).Contains x) :
    ph.segment.Contains x := by
  obtain ⟨hlow, hhigh⟩ := (h.fill_iff x).mp hx
  refine ⟨?_, hhigh⟩
  show ph.pVaddr.toNat ≤ x.toNat
  omega

/-- What the two blocks amount to: the segment is in place, its front from the file and zeros
behind, and no byte outside it has changed. -/
theorem Blocks.inPlace {ph : Elf64Phdr} (h : Blocks ph) (hle : ph.pFilesz.toNat ≤ ph.pMemsz.toNat)
    (hspace : ph.pVaddr.toNat + ph.pMemsz.toNat < 2 ^ 64)
    (hbuffer : (⟨ehdr, size⟩ : ByteRange).Fits)
    (hfile : ph.pOffset.toNat + ph.pFilesz.toNat ≤ size)
    (hsame : SameFile ehdr size memory₀ memory) :
    InPlace memory₀ ehdr ph
      ((memory.copy ph.pVaddr (ehdr + ph.pOffset) ph.pFilesz.toNat).fill (ph.pVaddr + ph.pFilesz)
        (ph.pMemsz - ph.pFilesz).toNat 0) := by
  unfold ByteRange.Fits at hbuffer
  simp only at hbuffer
  constructor
  case file =>
    intro k hk
    have hat : (ph.pVaddr + BitVec.ofNat 64 k).toNat = ph.pVaddr.toNat + k :=
      ByteRange.toNat_add (by omega)
    have hout : ¬ (⟨ph.pVaddr + ph.pFilesz, (ph.pMemsz - ph.pFilesz).toNat⟩ :
        ByteRange).Contains (ph.pVaddr + BitVec.ofNat 64 k) := by
      rw [h.fill_iff, hat]
      omega
    rw [ByteMemory.fill_frame hout, ByteMemory.copy_at h.copyFits hk]
    apply hsame
    have hfrom : (ehdr + ph.pOffset + BitVec.ofNat 64 k).toNat
        = ehdr.toNat + ph.pOffset.toNat + k := by
      rw [BitVec.toNat_add, BitVec.toNat_add, BitVec.toNat_ofNat]
      omega
    unfold ByteRange.Contains
    rw [hfrom]
    simp only
    omega
  case zero =>
    intro k hk hk'
    have hat : (ph.pVaddr + BitVec.ofNat 64 k).toNat = ph.pVaddr.toNat + k :=
      ByteRange.toNat_add (by omega)
    apply ByteMemory.fill_at
    rw [h.fill_iff, hat]
    omega

/-- **One segment.** The round of its header puts it in place, with the bytes of the file as
they were before the loop, and writes nowhere else. -/
theorem copySegment_load (hu : u.Documented) (hsame : SameFile ehdr size memory₀ memory)
    (h : LoadableImage memory₀ ehdr size) {i : Nat} (hi : IsLoad memory₀ ehdr i) :
    ∃ blocks memory', copySegment u ehdr (ehdr + ePhoff memory₀ ehdr) i memory
        = (blocks, memory') ∧
      InPlace memory₀ ehdr (Loader.header memory₀ ehdr i) memory' ∧
      (∀ x, ¬ (Loader.header memory₀ ehdr i).segment.Contains x → memory' x = memory x) ∧
      ∀ b ∈ blocks, ∀ x, b.Contains x → (Loader.header memory₀ ehdr i).segment.Contains x := by
  have hheader : ∀ m, SameFile ehdr size memory₀ m →
      phdrAt m (ehdr + ePhoff memory₀ ehdr) i = Loader.header memory₀ ehdr i :=
    fun m hm => hm.header h hi.1
  have hle := h.filesz_le i hi
  have hspace := (h.inSpace i hi).trans_lt (by decide : 2 ^ 64 - 0x1000 < 2 ^ 64)
  have hfile := h.inFile i hi
  have hoff := h.offFile i hi
  have hbuffer := h.buffer
  have htype := hi.2
  generalize Loader.header memory₀ ehdr i = ph at *
  have hblocks := blocks hle hspace
  have hsource : (⟨ehdr + ph.pOffset, ph.pFilesz.toNat⟩ : ByteRange).Fits := by
    unfold ByteRange.Fits at *
    simp only at *
    rw [BitVec.toNat_add]
    omega
  have hcopied : SameFile ehdr size memory₀
      (memory.copy ph.pVaddr (ehdr + ph.pOffset) ph.pFilesz.toNat) := by
    intro x hx
    rw [ByteMemory.copy_frame fun hc => hoff x (hblocks.copyIn x hc) hx]
    exact hsame x hx
  refine ⟨[⟨ph.pVaddr, ph.pFilesz.toNat⟩,
      ⟨ph.pVaddr + ph.pFilesz, (ph.pMemsz - ph.pFilesz).toNat⟩],
    (memory.copy ph.pVaddr (ehdr + ph.pOffset) ph.pFilesz.toNat).fill (ph.pVaddr + ph.pFilesz)
      (ph.pMemsz - ph.pFilesz).toNat 0, ?_, hblocks.inPlace hle hspace hbuffer hfile hsame, ?_, ?_⟩
  · rw [copySegment]
    simp only [hheader memory hsame]
    rw [if_neg (not_not.mpr htype), hu.copyMem _ _ _ _ hblocks.copyFits hsource,
      hheader _ hcopied, hu.setMem _ _ _ _ hblocks.fillFits]
  · intro x hx
    rw [ByteMemory.fill_frame fun hc => hx (hblocks.fillIn x hc),
      ByteMemory.copy_frame fun hc => hx (hblocks.copyIn x hc)]
  · intro b hb x hx
    rcases List.mem_cons.mp hb with hfirst | hb
    · subst hfirst
      exact hblocks.copyIn x hx
    · rw [List.mem_singleton.mp hb] at hx
      exact hblocks.fillIn x hx

/-! ## All segments -/

/-- What the loop keeps: the segments of the first `n` headers are in place, and
no other byte has changed. -/
structure Copied (memory₀ : ByteMemory) (ehdr : Addr) (n : Nat) (memory : ByteMemory) : Prop where
  inPlace : ∀ i < n, IsLoad memory₀ ehdr i →
    InPlace memory₀ ehdr (Loader.header memory₀ ehdr i) memory
  frame : ∀ x, (∀ i < n, IsLoad memory₀ ehdr i →
    ¬ (Loader.header memory₀ ehdr i).segment.Contains x) → memory x = memory₀ x

/-- No segment overlaps the file. -/
theorem Copied.sameFile {n : Nat} (hcopied : Copied memory₀ ehdr n memory)
    (h : LoadableImage memory₀ ehdr size) : SameFile ehdr size memory₀ memory :=
  fun x hx => hcopied.frame x fun i _ hi hc => h.offFile i hi x hc hx

/-- A segment that is in place stays there while a disjoint segment is copied: none of its bytes
and none of the file's are written. -/
theorem InPlace.frame {ph : Elf64Phdr} {memory' : ByteMemory}
    (hin : InPlace memory₀ ehdr ph memory)
    (hle : ph.pFilesz.toNat ≤ ph.pMemsz.toNat)
    (hfits : ph.segment.Fits)
    (hsame : ∀ x, ph.segment.Contains x → memory' x = memory x) :
    InPlace memory₀ ehdr ph memory' where
  file := fun k hk => by
    have hat : ph.segment.Contains (ph.pVaddr + BitVec.ofNat 64 k) :=
      ByteRange.contains_add hfits (Nat.lt_of_lt_of_le hk hle)
    rw [hsame _ hat]
    exact hin.file k hk
  zero := fun k hk hk' => by
    have hat : ph.segment.Contains (ph.pVaddr + BitVec.ofNat 64 k) :=
      ByteRange.contains_add hfits hk'
    rw [hsame _ hat]
    exact hin.zero k hk hk'

/-- One more header: its segment gets in place if it is to be loaded, the segments of the
headers before it stay there, and the file stays what it was. -/
theorem Copied.step (hu : u.Documented) (h : LoadableImage memory₀ ehdr size) {n : Nat}
    (hn : n < (Loader.ePhnum memory₀ ehdr).toNat) (hcopied : Copied memory₀ ehdr n memory) :
    ∃ blocks memory', copySegment u ehdr (ehdr + ePhoff memory₀ ehdr) n memory
        = (blocks, memory') ∧
      Copied memory₀ ehdr (n + 1) memory' ∧
      ∀ b ∈ blocks, ∀ x, b.Contains x →
        ∃ i, IsLoad memory₀ ehdr i ∧ (Loader.header memory₀ ehdr i).segment.Contains x := by
  have hsame := hcopied.sameFile h
  by_cases hload : IsLoad memory₀ ehdr n
  · obtain ⟨blocks, memory', hround, hplace, hframe, hblocks⟩ :=
      copySegment_load hu hsame h hload
    refine ⟨blocks, memory', hround, ⟨?_, ?_⟩, fun b hb x hx => ⟨n, hload, hblocks b hb x hx⟩⟩
    · intro i hi hi'
      rcases Nat.lt_succ_iff_lt_or_eq.mp hi with hlt | heq
      · have hspace := h.inSpace i hi'
        apply (hcopied.inPlace i hlt hi').frame (h.filesz_le i hi')
        · unfold ByteRange.Fits Elf64Phdr.segment
          simp only
          omega
        · intro x hx
          exact hframe x (h.apart i n hi' hload (Nat.ne_of_lt hlt) x hx)
      · subst heq
        exact hplace
    · intro x hx
      rw [hframe x (hx n (Nat.lt_succ_self n) hload)]
      exact hcopied.frame x fun i hi => hx i (Nat.lt_succ_of_lt hi)
  · refine ⟨[], memory, copySegment_skip hsame h hn hload, ⟨?_, ?_⟩,
      fun b hb => absurd hb List.not_mem_nil⟩
    · intro i hi hi'
      rcases Nat.lt_succ_iff_lt_or_eq.mp hi with hlt | heq
      · exact hcopied.inPlace i hlt hi'
      · subst heq
        exact absurd hi' hload
    · intro x hx
      exact hcopied.frame x fun i hi => hx i (Nat.lt_succ_of_lt hi)

/-- **The whole loop**, by induction on the rounds left: after the last header every segment to
load is in place, and the writes have gone into segments only. -/
theorem copySegmentsFrom_copied (hu : u.Documented) (h : LoadableImage memory₀ ehdr size)
    (left n : Nat) (hleft : (Loader.ePhnum memory₀ ehdr).toNat ≤ n + left)
    (hn : n ≤ (Loader.ePhnum memory₀ ehdr).toNat) (hcopied : Copied memory₀ ehdr n memory) :
    ∃ blocks memory', copySegmentsFrom u ehdr (ehdr + ePhoff memory₀ ehdr) left n memory
        = (blocks, memory') ∧
      Copied memory₀ ehdr (Loader.ePhnum memory₀ ehdr).toNat memory' ∧
      ∀ b ∈ blocks, ∀ x, b.Contains x →
        ∃ i, IsLoad memory₀ ehdr i ∧ (Loader.header memory₀ ehdr i).segment.Contains x := by
  induction left generalizing n memory with
  | zero =>
      have hall : n = (Loader.ePhnum memory₀ ehdr).toNat := by omega
      subst hall
      exact ⟨[], memory, rfl, hcopied, fun b hb => absurd hb List.not_mem_nil⟩
  | succ left ih =>
      have hcount := (hcopied.sameFile h).ePhnum h
      by_cases hmore : n < (Loader.ePhnum memory₀ ehdr).toNat
      · obtain ⟨blocks, memory', hround, hcopied', hblocks⟩ := hcopied.step hu h hmore
        obtain ⟨rest, memory'', hrounds, hall, hrest⟩ := ih (n + 1) (by omega) hmore hcopied'
        refine ⟨blocks ++ rest, memory'', ?_, hall, ?_⟩
        · rw [copySegmentsFrom, hcount, if_pos hmore, hround]
          simp only
          rw [hrounds]
        · intro b hb
          rcases List.mem_append.mp hb with hb | hb
          · exact hblocks b hb
          · exact hrest b hb
      · have hall : n = (Loader.ePhnum memory₀ ehdr).toNat := by omega
        refine ⟨[], memory, ?_, ?_, fun b hb => absurd hb List.not_mem_nil⟩
        · rw [copySegmentsFrom, hcount, if_neg hmore]
        · rw [← hall]
          exact hcopied

/-! ## The kernel in memory -/

/-- What the loader leaves: the tightest range around the segments, pages that
cover it, every segment in place, nothing else changed, and nothing written
outside the pages. -/
structure KernelLoaded (memory : ByteMemory) (ehdr : Addr) (result : KernelLoad) : Prop where
  first : IsLeast {a | ∃ i, IsLoad memory ehdr i ∧ a = (header memory ehdr i).pVaddr.toNat}
    result.first.toNat
  last : IsGreatest {a | ∃ i, IsLoad memory ehdr i ∧ a = (header memory ehdr i).limit}
    result.last.toNat
  inRange : ∀ i, IsLoad memory ehdr i → ∀ x, (header memory ehdr i).segment.Contains x →
    result.first.toNat ≤ x.toNat ∧ x.toNat < result.last.toNat
  pages : result.pages = ⟨result.first, pageSize * result.numPages.toNat⟩
  covered : ∀ x : Addr, result.first.toNat ≤ x.toNat → x.toNat < result.last.toNat →
    result.pages.Contains x
  inPlace : ∀ i, IsLoad memory ehdr i →
    InPlace memory ehdr (header memory ehdr i) result.memory
  frame : ∀ x, (∀ i, IsLoad memory ehdr i → ¬ (header memory ehdr i).segment.Contains x) →
    result.memory x = memory x
  written : ∀ b ∈ result.written, ∀ x, b.Contains x → result.pages.Contains x

/-- The pages reach from the first address to the last: their number is the length of the range
divided by their size, rounded up. -/
theorem covers_pages {first last : Addr} (hle : first.toNat ≤ last.toNat)
    (hlast : last.toNat ≤ 2 ^ 64 - 0x1000) :
    last.toNat ≤ first.toNat + pageSize * (numPagesOf (first, last)).toNat := by
  have hsub : (last - first).toNat = last.toNat - first.toNat := BitVec.toNat_sub_of_le hle
  have hround : (last - first + 0xfff).toNat = last.toNat - first.toNat + 0xfff := by
    rw [BitVec.toNat_add, hsub]
    have hliteral : (0xfff : BitVec 64).toNat = 0xfff := by decide
    omega
  have hdiv : (numPagesOf (first, last)).toNat = (last.toNat - first.toNat + 0xfff) / 0x1000 := by
    rw [numPagesOf, BitVec.toNat_udiv, hround]
    rfl
  rw [hdiv, pageSize]
  omega

/-- **The kernel image is loaded.** If the pages are granted, the loader gets to its end, and
every loadable segment of the image is where it belongs, its front from the file and its rest
zero, with no byte changed outside the pages. -/
theorem loadKernel_loaded (hu : u.Documented) (h : LoadableImage memory ehdr size)
    (hgranted : u.allocatePages (calcLoadAddressRange memory ehdr).1
      (numPagesOf (calcLoadAddressRange memory ehdr)) ≠ none) :
    ∃ result, loadKernel u ehdr memory = some result ∧ KernelLoaded memory ehdr result := by
  obtain ⟨hfirst, hlast⟩ := calcLoadAddressRange_isLeast h
  obtain ⟨pages, hpages⟩ := Option.ne_none_iff_exists'.mp hgranted
  have hstart : Copied memory ehdr 0 memory :=
    ⟨fun i hi => absurd hi (Nat.not_lt_zero i), fun _ _ => rfl⟩
  have hrounds : (ePhnum memory ehdr).toNat ≤ 0 + (2 ^ 16 - 1) := by
    have := (ePhnum memory ehdr).isLt
    omega
  obtain ⟨blocks, memory', hcopy, hcopied, hblocks⟩ :=
    copySegmentsFrom_copied hu h _ 0 hrounds (Nat.zero_le _) hstart
  have hinRange : ∀ i, IsLoad memory ehdr i → ∀ x, (header memory ehdr i).segment.Contains x →
      (calcLoadAddressRange memory ehdr).1.toNat ≤ x.toNat ∧
        x.toNat < (calcLoadAddressRange memory ehdr).2.toNat := by
    intro i hi x ⟨hlo, hhi⟩
    exact ⟨(hfirst.2 ⟨i, hi, rfl⟩).trans hlo, Nat.lt_of_lt_of_le hhi (hlast.2 ⟨i, hi, rfl⟩)⟩
  have hlimit : (calcLoadAddressRange memory ehdr).2.toNat ≤ 2 ^ 64 - 0x1000 := by
    obtain ⟨i, hi, hat⟩ := hlast.1
    rw [hat]
    exact h.inSpace i hi
  have hordered : (calcLoadAddressRange memory ehdr).1.toNat
      ≤ (calcLoadAddressRange memory ehdr).2.toNat := by
    obtain ⟨i, hi⟩ := h.nonempty
    exact (hfirst.2 ⟨i, hi, rfl⟩).trans ((Nat.le_add_right _ _).trans (hlast.2 ⟨i, hi, rfl⟩))
  have hallocated := hu.allocatePages _ _ _ hpages
  have hcovered : ∀ x : Addr, (calcLoadAddressRange memory ehdr).1.toNat ≤ x.toNat →
      x.toNat < (calcLoadAddressRange memory ehdr).2.toNat → pages.Contains x := by
    intro x hlo hhi
    rw [hallocated]
    exact ⟨hlo, Nat.lt_of_lt_of_le hhi (covers_pages hordered hlimit)⟩
  refine ⟨⟨(calcLoadAddressRange memory ehdr).1, (calcLoadAddressRange memory ehdr).2,
    numPagesOf (calcLoadAddressRange memory ehdr), pages, blocks, memory'⟩,
    by rw [loadKernel]; simp only [hpages, copyLoadSegments, hcopy], ?_⟩
  exact {
    first := hfirst
    last := hlast
    inRange := hinRange
    pages := hallocated
    covered := hcovered
    inPlace := fun i hi => hcopied.inPlace i hi.1 hi
    frame := fun x hx => hcopied.frame x fun i _ hi => hx i hi
    written := fun b hb x hx => by
      obtain ⟨i, hi, hin⟩ := hblocks b hb x hx
      obtain ⟨hlo, hhi⟩ := hinRange i hi x hin
      exact hcovered x hlo hhi }

/-! ## A small image -/

/-- Firmware that does as documented. -/
def plainUefi : Uefi where
  copyMem := fun destination source length memory =>
    memory.copy destination source length.toNat
  setMem := fun buffer length value memory => memory.fill buffer length.toNat value
  allocatePages := fun address pages => some ⟨address, pageSize * pages.toNat⟩

/-- A firmware that does what is documented exists. -/
theorem plainUefi_documented : plainUefi.Documented where
  copyMem := fun _ _ _ _ _ _ => rfl
  setMem := fun _ _ _ _ _ => rfl
  allocatePages := fun _ _ _ h => (Option.some.inj h).symm

/-- A file with a program header of type `PT_PHDR` and a loadable segment of two
file bytes and two zeros at 1 MiB. -/
def smallFile : List (BitVec 8) :=
  List.replicate 32 0 ++ 64 :: List.replicate 23 0 ++ 2 :: List.replicate 7 0
    ++ 6 :: List.replicate 55 0
    ++ 1 :: List.replicate 7 0 ++ 176 :: List.replicate 7 0 ++ [0, 0, 0x10] ++ List.replicate 13 0
    ++ 2 :: List.replicate 7 0 ++ 4 :: List.replicate 15 0
    ++ [0xaa, 0xbb]

/-- Where the file is. -/
def smallEhdr : Addr := 0x200000

/-- The memory with the file in it. -/
def smallMemory : ByteMemory := fun a => (smallFile[(a - smallEhdr).toNat]?).getD 0

/-- In the memory of the example the second program header is the one to load, and the only one.
-/
theorem smallMemory_isLoad (i : Nat) : IsLoad smallMemory smallEhdr i ↔ i = 1 := by
  have hcount : (ePhnum smallMemory smallEhdr).toNat = 2 := by decide +kernel
  have hzero : (header smallMemory smallEhdr 0).pType ≠ PT_LOAD := by decide +kernel
  have hone : (header smallMemory smallEhdr 1).pType = PT_LOAD := by decide +kernel
  constructor
  · intro ⟨hi, htype⟩
    rw [hcount] at hi
    rcases Nat.lt_succ_iff_lt_or_eq.mp hi with hlt | heq
    · rw [Nat.lt_one_iff.mp hlt] at htype
      exact absurd htype hzero
    · exact heq
  · intro hi
    subst hi
    exact ⟨by rw [hcount]; decide, hone⟩

/-- The memory of the example holds an image as `LoadKernel` wants it, with one segment to load.
-/
theorem smallMemory_loadable : LoadableImage smallMemory smallEhdr 178 := by
  have hheader : header smallMemory smallEhdr 1 = ⟨1, 176, 0x100000, 2, 4⟩ := by decide +kernel
  have honly : ∀ {P : Nat → Prop}, P 1 → ∀ i, IsLoad smallMemory smallEhdr i → P i := by
    intro P hP i hi
    rw [(smallMemory_isLoad i).mp hi]
    exact hP
  exact {
    buffer := by decide
    fileHeader := by decide
    table := by decide +kernel
    nonempty := ⟨1, (smallMemory_isLoad 1).mpr rfl⟩
    filesz_le := honly (by rw [hheader]; decide)
    inFile := honly (by rw [hheader]; decide)
    inSpace := honly (by rw [hheader]; decide)
    apart := fun i j hi hj hne => absurd
      (((smallMemory_isLoad i).mp hi).trans ((smallMemory_isLoad j).mp hj).symm) hne
    offFile := honly (by
      rw [hheader]
      intro x ⟨_, hx⟩ ⟨hx', _⟩
      have hlow : (0x100000 : Addr).toNat = 0x100000 := by decide
      have hhigh : smallEhdr.toNat = 0x200000 := by decide
      have hsize : (4 : BitVec 64).toNat = 4 := by decide
      simp only [Elf64Phdr.segment, hlow, hhigh, hsize] at hx hx'
      omega) }

/-- The small image of the example is loaded, with firmware that grants its pages. -/
theorem loadKernel_loaded_small :
    ∃ result, loadKernel plainUefi smallEhdr smallMemory = some result ∧
      KernelLoaded smallMemory smallEhdr result :=
  loadKernel_loaded plainUefi_documented smallMemory_loadable (Option.some_ne_none _)

end Mikanos.Loader
