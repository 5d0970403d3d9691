import Mikanos.Loader.LoadKernel

/-!
# Where the kernel is entered

`UefiMain` takes the entry point from the loaded kernel, not from the file: it reads a word
24 bytes behind the lowest address of the segments, where `e_entry` is if the file header was
loaded there.  Nothing makes sure of that.

`imageByte` says what the segments put at an address, whatever the order they are copied in.
The word read is then `e_entry` exactly if eight bytes of the image agree with the file header
(`entersAtEntry_iff`).  It does if the lowest segment begins with the file header
(`entryAtLowest_of_fileHeader`), as the linker is asked to arrange it.
-/

namespace Mikanos.Loader

/-- `ehdr->e_entry`. -/
def eEntry (memory : ByteMemory) (ehdr : Addr) : Addr := memory.load 8 (ehdr + 24)

/-- `entry_addr`: `*(UINT64*)(kernel_first_addr + 24)`. -/
def KernelLoad.entryAddr (load : KernelLoad) : Addr := load.memory.load 8 (load.first + 24)

/-- `UefiMain` up to the call of the kernel: the address that is called. -/
def enteredAt (u : Uefi) (ehdr : Addr) (memory : ByteMemory) : Option Addr :=
  (loadKernel u ehdr memory).map KernelLoad.entryAddr

/-- The kernel is entered at `e_entry`. -/
def EntersAtEntry (u : Uefi) (ehdr : Addr) (memory : ByteMemory) : Prop :=
  enteredAt u ehdr memory = some (eEntry memory ehdr)

/-! ## The loaded image -/

/-- A byte of the loaded image: of the file, or 0 behind the bytes from the file, or what was
there before. -/
def imageByte (memory : ByteMemory) (ehdr : Addr) (a : Addr) : BitVec 8 :=
  match (List.range (ePhnum memory ehdr).toNat).find? fun i =>
    (header memory ehdr i).pType = PT_LOAD ∧ (header memory ehdr i).segment.Contains a with
  | none => memory a
  | some i =>
      let h := header memory ehdr i
      if (a - h.pVaddr).toNat < h.pFilesz.toNat then memory (ehdr + h.pOffset + (a - h.pVaddr))
      else 0

/-- The header number `i` is the one of the lowest segment. -/
def Lowest (memory : ByteMemory) (ehdr : Addr) (i : Nat) : Prop :=
  IsLoad memory ehdr i ∧ ∀ j, IsLoad memory ehdr j →
    (header memory ehdr i).pVaddr.toNat ≤ (header memory ehdr j).pVaddr.toNat

/-- The image has the bytes of `e_entry` where it is looked for. -/
def EntryAtLowest (memory : ByteMemory) (ehdr : Addr) : Prop :=
  ∀ i, Lowest memory ehdr i → ∀ k < 8,
    imageByte memory ehdr ((header memory ehdr i).pVaddr + 24 + BitVec.ofNat 64 k) =
      memory (ehdr + 24 + BitVec.ofNat 64 k)

variable {u : Uefi} {memory : ByteMemory} {ehdr : Addr} {size : Nat}

/-- A byte of a segment is the byte of the file at the same distance from the start of the
segment, or zero behind what the file has of it. -/
theorem imageByte_segment (h : LoadableImage memory ehdr size) {i : Nat}
    (hi : IsLoad memory ehdr i) {a : Addr} (ha : (header memory ehdr i).segment.Contains a) :
    imageByte memory ehdr a =
      if (a - (header memory ehdr i).pVaddr).toNat < (header memory ehdr i).pFilesz.toNat then
        memory (ehdr + (header memory ehdr i).pOffset + (a - (header memory ehdr i).pVaddr))
      else 0 := by
  have hfind : (List.range (ePhnum memory ehdr).toNat).find? (fun i =>
      (header memory ehdr i).pType = PT_LOAD ∧ (header memory ehdr i).segment.Contains a) =
        some i := by
    rw [List.find?_range_eq_some]
    refine ⟨by simpa using ⟨hi.2, ha⟩, List.mem_range.mpr hi.1, fun j hj => ?_⟩
    have hlt := Nat.lt_trans hj hi.1
    have hapart : ∀ hload : (header memory ehdr j).pType = PT_LOAD,
        ¬ (header memory ehdr j).segment.Contains a :=
      fun hload hin => h.apart j i ⟨hlt, hload⟩ hi (Nat.ne_of_lt hj) a hin ha
    simpa [imp_iff_not_or] using hapart
  rw [imageByte, hfind]

/-- A byte that belongs to no segment to load is what it was before loading. -/
theorem imageByte_outside {a : Addr}
    (ha : ∀ i, IsLoad memory ehdr i → ¬ (header memory ehdr i).segment.Contains a) :
    imageByte memory ehdr a = memory a := by
  have hfind : (List.range (ePhnum memory ehdr).toNat).find? (fun i =>
      (header memory ehdr i).pType = PT_LOAD ∧ (header memory ehdr i).segment.Contains a) =
        none := by
    rw [List.find?_eq_none]
    intro i hi
    have hnot := fun hload => ha i ⟨List.mem_range.mp hi, hload⟩
    simpa using hnot
  rw [imageByte, hfind]

/-- **The memory after loading**, byte by byte: the bytes of the segments are those of the file
or zero, and the loader has changed no other. -/
theorem KernelLoaded.memory_eq {result : KernelLoad} (h : LoadableImage memory ehdr size)
    (hloaded : KernelLoaded memory ehdr result) (a : Addr) :
    result.memory a = imageByte memory ehdr a := by
  by_cases hin : ∃ i, IsLoad memory ehdr i ∧ (header memory ehdr i).segment.Contains a
  · obtain ⟨i, hi, ha⟩ := hin
    have hplace := hloaded.inPlace i hi
    have hat : (header memory ehdr i).pVaddr +
        BitVec.ofNat 64 (a - (header memory ehdr i).pVaddr).toNat = a := by
      rw [BitVec.ofNat_toNat, BitVec.setWidth_eq, BitVec.add_comm, BitVec.sub_add_cancel]
    have hoffset : (a - (header memory ehdr i).pVaddr).toNat <
        (header memory ehdr i).pMemsz.toNat := by
      obtain ⟨hlow, hhigh⟩ := ha
      simp only [Elf64Phdr.segment] at hlow hhigh
      rw [BitVec.toNat_sub_of_le hlow]
      omega
    rw [imageByte_segment h hi ha]
    split
    · rename_i hfile
      have hbyte := hplace.file _ hfile
      rwa [hat, BitVec.ofNat_toNat, BitVec.setWidth_eq] at hbyte
    · rename_i hfile
      have hbyte := hplace.zero _ (Nat.le_of_not_lt hfile) hoffset
      rwa [hat] at hbyte
  · rw [hloaded.frame a fun i hi ha => hin ⟨i, hi, ha⟩,
      imageByte_outside fun i hi ha => hin ⟨i, hi, ha⟩]

/-! ## The entry point -/

/-- **Where the kernel is entered**: at `e_entry` exactly if the segments put the bytes of
`e_entry` 24 bytes behind their lowest address, as an image does whose lowest segment starts
with the file header. -/
theorem entersAtEntry_iff (hu : u.Documented) (h : LoadableImage memory ehdr size)
    (hgranted : u.allocatePages (calcLoadAddressRange memory ehdr).1
      (numPagesOf (calcLoadAddressRange memory ehdr)) ≠ none) :
    EntersAtEntry u ehdr memory ↔ EntryAtLowest memory ehdr := by
  obtain ⟨result, hresult, hloaded⟩ := loadKernel_loaded hu h hgranted
  obtain ⟨⟨lowest, hload, hfirst⟩, hleast⟩ := hloaded.first
  have hlowest : ∀ i, Lowest memory ehdr i → (header memory ehdr i).pVaddr = result.first := by
    intro i hi
    have hle := hi.2 lowest hload
    have hge := hleast ⟨i, hi.1, rfl⟩
    exact BitVec.eq_of_toNat_eq (by omega)
  have hentry : EntersAtEntry u ehdr memory ↔ ∀ k < 8,
      imageByte memory ehdr (result.first + 24 + BitVec.ofNat 64 k) =
        memory (ehdr + 24 + BitVec.ofNat 64 k) := by
    rw [EntersAtEntry, enteredAt, hresult, Option.map_some, Option.some.injEq,
      KernelLoad.entryAddr, eEntry]
    simp only [← hloaded.memory_eq h]
    exact ByteMemory.load_eq_iff
  rw [hentry]
  constructor
  · intro hbytes i hi
    rw [hlowest i hi]
    exact hbytes
  · intro hbytes
    have hthis : Lowest memory ehdr lowest := by
      refine ⟨hload, fun j hj => ?_⟩
      rw [← hfirst]
      exact hleast ⟨j, hj, rfl⟩
    rw [← hlowest lowest hthis]
    exact hbytes lowest hthis

/-- **A kernel that begins with its file header** is entered at `e_entry`: the lowest segment
has file offset 0 and reaches to the end of `e_entry` at least. -/
theorem entryAtLowest_of_fileHeader (h : LoadableImage memory ehdr size)
    (hheader : ∀ i, Lowest memory ehdr i →
      (header memory ehdr i).pOffset = 0 ∧ 32 ≤ (header memory ehdr i).pFilesz.toNat) :
    EntryAtLowest memory ehdr := by
  intro i hi k hk
  obtain ⟨hoffset, hfilesz⟩ := hheader i hi
  have hle := h.filesz_le i hi.1
  have hspace := h.inSpace i hi.1
  have hat : (header memory ehdr i).pVaddr + 24 + BitVec.ofNat 64 k =
      (header memory ehdr i).pVaddr + BitVec.ofNat 64 (24 + k) := by
    rw [BitVec.ofNat_add, ← BitVec.add_assoc]
    rfl
  have hin : (header memory ehdr i).segment.Contains
      ((header memory ehdr i).pVaddr + BitVec.ofNat 64 (24 + k)) := by
    refine ByteRange.contains_add ?_ ?_
    · unfold ByteRange.Fits Elf64Phdr.segment
      simp only
      omega
    · show 24 + k < (header memory ehdr i).pMemsz.toNat
      omega
  have hback : (header memory ehdr i).pVaddr + BitVec.ofNat 64 (24 + k) -
      (header memory ehdr i).pVaddr = BitVec.ofNat 64 (24 + k) := by
    rw [BitVec.add_comm, BitVec.add_sub_cancel]
  have hfile : (BitVec.ofNat 64 (24 + k)).toNat < (header memory ehdr i).pFilesz.toNat := by
    rw [BitVec.toNat_ofNat]
    omega
  have hstart : ehdr + (0 : BitVec 64) = ehdr := BitVec.add_zero ehdr
  rw [hat, imageByte_segment h hi.1 hin, hback, if_pos hfile, hoffset, hstart, BitVec.ofNat_add,
    ← BitVec.add_assoc]
  rfl

/-! ## Two small kernels -/

/-- The memory with a file in it. -/
def memoryWith (file : List (BitVec 8)) : ByteMemory :=
  fun a => (file[(a - smallEhdr).toNat]?).getD 0

/-- The small file with `e_entry` at the start of its segment, which is the last thing in the
file. -/
def bareFile : List (BitVec 8) := smallFile.set 26 0x10

/-- The same, with the whole file in the segment. -/
def wholeFile : List (BitVec 8) := ((bareFile.set 128 0).set 152 178).set 160 180

/-- An image with one segment, the second one of two headers, is loadable if that segment lies
in the file and in its pages and misses the buffer. -/
theorem loadable_of_second {file : List (BitVec 8)} {ph : Elf64Phdr}
    (htable : (ePhoff (memoryWith file) smallEhdr).toNat = 64)
    (hcount : (ePhnum (memoryWith file) smallEhdr).toNat = 2)
    (hzero : (header (memoryWith file) smallEhdr 0).pType ≠ PT_LOAD)
    (hone : header (memoryWith file) smallEhdr 1 = ph) (htype : ph.pType = PT_LOAD)
    (hfilesz : ph.pFilesz.toNat ≤ ph.pMemsz.toNat)
    (hfile : ph.pOffset.toNat + ph.pFilesz.toNat ≤ 178)
    (hlow : ph.pVaddr.toNat + ph.pMemsz.toNat ≤ smallEhdr.toNat) :
    LoadableImage (memoryWith file) smallEhdr 178 ∧
      ∀ i, IsLoad (memoryWith file) smallEhdr i ↔ i = 1 := by
  have hisLoad : ∀ i, IsLoad (memoryWith file) smallEhdr i ↔ i = 1 := by
    intro i
    constructor
    · intro ⟨hi, hload⟩
      rw [hcount] at hi
      rcases Nat.lt_succ_iff_lt_or_eq.mp hi with hlt | heq
      · rw [Nat.lt_one_iff.mp hlt] at hload
        exact absurd hload hzero
      · exact heq
    · intro hi
      subst hi
      exact ⟨by rw [hcount]; decide, by rw [hone]; exact htype⟩
  have hat : ∀ i, IsLoad (memoryWith file) smallEhdr i →
      header (memoryWith file) smallEhdr i = ph := by
    intro i hi
    rw [(hisLoad i).mp hi, hone]
  have hehdr : smallEhdr.toNat = 0x200000 := by decide
  refine ⟨?_, hisLoad⟩
  constructor
  case buffer => decide
  case fileHeader => decide
  case table =>
    rw [htable, hcount]
    decide
  case nonempty => exact ⟨1, (hisLoad 1).mpr rfl⟩
  case filesz_le =>
    intro i hi
    rwa [hat i hi]
  case inFile =>
    intro i hi
    rwa [hat i hi]
  case inSpace =>
    intro i hi
    rw [hat i hi]
    omega
  case apart =>
    intro i j hi hj hne
    exact absurd (((hisLoad i).mp hi).trans ((hisLoad j).mp hj).symm) hne
  case offFile =>
    intro i hi x ⟨_, hx⟩ ⟨hx', _⟩
    rw [hat i hi] at hx
    simp only [Elf64Phdr.segment] at hx hx'
    omega

theorem wholeFile_loadable : LoadableImage (memoryWith wholeFile) smallEhdr 178 ∧
    ∀ i, IsLoad (memoryWith wholeFile) smallEhdr i ↔ i = 1 :=
  @loadable_of_second wholeFile ⟨1, 0, 0x100000, 178, 180⟩ (by decide +kernel) (by decide +kernel)
    (by decide +kernel) (by decide +kernel) rfl (by decide) (by decide) (by decide)

/-- The loader asks nothing of a file that the bare kernel does not have, and enters it; but its
segment does not have the file header, so the kernel is not entered at `e_entry`. -/
theorem entersAtEntry_fails_bare : LoadableImage (memoryWith bareFile) smallEhdr 178 ∧
    enteredAt plainUefi smallEhdr (memoryWith bareFile) ≠ none ∧
    ¬ EntersAtEntry plainUefi smallEhdr (memoryWith bareFile) := by
  have hloadable := @loadable_of_second bareFile ⟨1, 176, 0x100000, 2, 4⟩ (by decide +kernel)
    (by decide +kernel) (by decide +kernel) (by decide +kernel) rfl (by decide) (by decide)
    (by decide)
  have hentered : enteredAt plainUefi smallEhdr (memoryWith bareFile) = some 0 := by
    decide +kernel
  have hentry : eEntry (memoryWith bareFile) smallEhdr = 0x100000 := by decide +kernel
  rw [EntersAtEntry, hentered, hentry]
  exact ⟨hloadable.1, Option.some_ne_none _, by decide⟩

/-- The whole file is loaded, its headers included, so the word that the loader reads is the
entry point of the file. -/
theorem entersAtEntry_iff_whole : EntersAtEntry plainUefi smallEhdr (memoryWith wholeFile) := by
  refine (entersAtEntry_iff plainUefi_documented wholeFile_loadable.1
    (Option.some_ne_none _)).mpr ?_
  refine entryAtLowest_of_fileHeader wholeFile_loadable.1 fun i hi => ?_
  have hheader : header (memoryWith wholeFile) smallEhdr 1 = ⟨1, 0, 0x100000, 178, 180⟩ := by
    decide +kernel
  rw [(wholeFile_loadable.2 i).mp hi.1, hheader]
  decide

end Mikanos.Loader
