import Mikanos.Loader.UefiMain

/-!
# The kernel that is entered

`bootProtocol` says in which order the loader makes its calls, this module what the kernel finds.
The firmware is as documented: it reads the file it was asked for, leaves alone what it has
allocated, and does not allocate it twice (`firmware`).

Between the calls the loader has only addresses in its hands.  What carries the argument is that
the buffer with the file is intact while the segments are copied, and the pages with the
segments are intact until the kernel is entered.  Most calls do nothing to either (`Quiet`).
-/

namespace Mikanos.Loader

open Dialogue Protocol Boot

/-! ## The kernel file -/

/-- A kernel file: its bytes, from address 0 on. -/
structure KernelFile where
  byte : ByteMemory
  size : BitVec 64

namespace KernelFile

/-- The file is in the buffer. -/
def At (file : KernelFile) (memory : ByteMemory) (buffer : Addr) : Prop :=
  ∀ k < file.size.toNat, memory (buffer + BitVec.ofNat 64 k) = file.byte (BitVec.ofNat 64 k)

/-- The file has at least one loadable segment, and its loadable segments fit the file, the
address space and each other. -/
structure Loadable (file : KernelFile) : Prop where
  fileHeader : sizeofEhdr ≤ file.size.toNat
  table : (ePhoff file.byte 0).toNat + sizeofPhdr * (ePhnum file.byte 0).toNat ≤ file.size.toNat
  nonempty : ∃ i, IsLoad file.byte 0 i
  filesz_le : ∀ i, IsLoad file.byte 0 i →
    (header file.byte 0 i).pFilesz.toNat ≤ (header file.byte 0 i).pMemsz.toNat
  inFile : ∀ i, IsLoad file.byte 0 i →
    (header file.byte 0 i).pOffset.toNat + (header file.byte 0 i).pFilesz.toNat ≤ file.size.toNat
  inSpace : ∀ i, IsLoad file.byte 0 i → (header file.byte 0 i).limit ≤ 2 ^ 64 - 0x1000
  apart : ∀ i j, IsLoad file.byte 0 i → IsLoad file.byte 0 j → i ≠ j →
    (header file.byte 0 i).segment.Disjoint (header file.byte 0 j).segment

/-- Every loadable segment of the file is where it belongs. -/
def Placed (file : KernelFile) (memory : ByteMemory) : Prop :=
  ∀ i, IsLoad file.byte 0 i → InPlace file.byte 0 (header file.byte 0 i) memory

/-- The lowest segment begins with the file header. -/
def HeaderFirst (file : KernelFile) : Prop :=
  ∀ i, Lowest file.byte 0 i →
    (header file.byte 0 i).pOffset = 0 ∧ 32 ≤ (header file.byte 0 i).pFilesz.toNat

variable {file : KernelFile} {memory : ByteMemory} {buffer : Addr}

/-- A number in the buffer is the number in the file. -/
theorem At.load (hat : file.At memory buffer) {start n : Nat} (hin : start + n ≤ file.size.toNat) :
    memory.load n (buffer + BitVec.ofNat 64 start) = file.byte.load n (BitVec.ofNat 64 start) := by
  refine ByteMemory.load_eq_iff.mpr fun k hk => ?_
  rw [BitVec.add_assoc, ← BitVec.ofNat_add, hat _ (by omega)]

/-- The offset of the program headers, read where the file was loaded, is the one in the file.
-/
theorem At.ePhoff (hat : file.At memory buffer) (h : file.Loadable) :
    ePhoff memory buffer = Loader.ePhoff file.byte 0 := by
  have hsize : 64 ≤ file.size.toNat := h.fileHeader
  exact @At.load file memory buffer hat 32 8 (by omega)

/-- The loader reads the number of program headers out of memory as it stands in the file, once
the file is there. -/
theorem At.ePhnum (hat : file.At memory buffer) (h : file.Loadable) :
    ePhnum memory buffer = Loader.ePhnum file.byte 0 := by
  have hsize : 64 ≤ file.size.toNat := h.fileHeader
  exact @At.load file memory buffer hat 56 2 (by omega)

/-- The program headers that the loader reads in the buffer are the headers in the file, for
every index up to their number. -/
theorem At.header (hat : file.At memory buffer) (h : file.Loadable) {i : Nat}
    (hi : i < (Loader.ePhnum file.byte 0).toNat) :
    header memory buffer i = Loader.header file.byte 0 i := by
  have hin : (Loader.ePhoff file.byte 0).toNat + sizeofPhdr * i + sizeofPhdr ≤ file.size.toNat := by
    have htable := h.table
    have hnext : sizeofPhdr * (i + 1) ≤ sizeofPhdr * (Loader.ePhnum file.byte 0).toNat :=
      Nat.mul_le_mul_left _ hi
    rw [Nat.mul_succ] at hnext
    omega
  have haddr : ∀ (base : Addr) c, phdrAddr (base + Loader.ePhoff file.byte 0) i + BitVec.ofNat 64 c
      = base + BitVec.ofNat 64 ((Loader.ePhoff file.byte 0).toNat + sizeofPhdr * i + c) := by
    intro base c
    rw [phdrAddr, BitVec.ofNat_add, BitVec.ofNat_add, BitVec.ofNat_toNat, BitVec.setWidth_eq]
    simp only [BitVec.add_assoc]
  have hfield : ∀ n c, n + c ≤ sizeofPhdr →
      memory.load n (phdrAddr (buffer + Loader.ePhoff file.byte 0) i + BitVec.ofNat 64 c)
        = file.byte.load n (phdrAddr (0 + Loader.ePhoff file.byte 0) i + BitVec.ofNat 64 c) := by
    intro n c hc
    have hzero : ∀ x : Addr, 0 + x = x := BitVec.zero_add
    rw [haddr, haddr, hzero]
    exact hat.load (by omega)
  have hphdr : sizeofPhdr = 56 := rfl
  have hstart : ∀ base, phdrAddr (base + Loader.ePhoff file.byte 0) i + BitVec.ofNat 64 0
      = phdrAddr (base + Loader.ePhoff file.byte 0) i := fun _ => BitVec.add_zero _
  have htype := hfield 4 0 (by omega)
  rw [hstart, hstart] at htype
  rw [Loader.header, Loader.header, hat.ePhoff h, phdrAt, phdrAt, htype]
  exact congr (congr (congr (congrArg _ (hfield 8 8 (by omega))) (hfield 8 16 (by omega)))
    (hfield 8 32 (by omega))) (hfield 8 40 (by omega))

/-- **The same segments**: which program headers are loaded can be seen in the file or in
memory. -/
theorem At.isLoad (hat : file.At memory buffer) (h : file.Loadable) {i : Nat} :
    IsLoad memory buffer i ↔ IsLoad file.byte 0 i := by
  unfold IsLoad
  rw [hat.ePhnum h]
  exact and_congr_right fun hi => by rw [hat.header h hi]

/-- A loadable file is a loadable image once it is in a buffer that no segment goes to: what was
said of the file holds of the bytes in memory. -/
theorem Loadable.image (h : file.Loadable) (hat : file.At memory buffer)
    (hfits : (⟨buffer, file.size.toNat⟩ : ByteRange).Fits)
    (hoff : ∀ i, IsLoad file.byte 0 i →
      (Loader.header file.byte 0 i).segment.Disjoint ⟨buffer, file.size.toNat⟩) :
    LoadableImage memory buffer file.size.toNat := by
  have hheader : ∀ {P : Elf64Phdr → Prop},
      (∀ i, IsLoad file.byte 0 i → P (Loader.header file.byte 0 i)) →
        ∀ i, IsLoad memory buffer i → P (Loader.header memory buffer i) := by
    intro P hP i hi
    have hi' := (hat.isLoad h).mp hi
    rw [hat.header h hi'.1]
    exact hP i hi'
  constructor
  case buffer => exact hfits
  case fileHeader => exact h.fileHeader
  case table =>
    rw [hat.ePhoff h, hat.ePhnum h]
    exact h.table
  case nonempty =>
    obtain ⟨i, hi⟩ := h.nonempty
    exact ⟨i, (hat.isLoad h).mpr hi⟩
  case filesz_le => exact @hheader (fun ph => ph.pFilesz.toNat ≤ ph.pMemsz.toNat) h.filesz_le
  case inFile =>
    exact @hheader (fun ph => ph.pOffset.toNat + ph.pFilesz.toNat ≤ file.size.toNat) h.inFile
  case inSpace => exact @hheader (fun ph => ph.limit ≤ 2 ^ 64 - 0x1000) h.inSpace
  case apart =>
    intro i j hi hj hne
    have hi' := (hat.isLoad h).mp hi
    have hj' := (hat.isLoad h).mp hj
    rw [hat.header h hi'.1, hat.header h hj'.1]
    exact h.apart i j hi' hj' hne
  case offFile => exact @hheader (fun ph => ph.segment.Disjoint ⟨buffer, file.size.toNat⟩) hoff

end KernelFile

/-! ## The pages -/

/-- What `CalcLoadAddressRange` has seen so far lies in its range, which ends no later than all
of it. -/
theorem foldl_updateRange {bound : Nat} (hbound : bound < 2 ^ 64) (h : Nat → Elf64Phdr)
    (hs : List Nat) (range : Addr × Addr) (hrange : range.2.toNat ≤ bound)
    (hspace : ∀ i ∈ hs, (h i).pType = PT_LOAD → (h i).limit ≤ bound) :
    let range' := hs.foldl (fun range i => updateRange (h i) range) range
    (range'.1.toNat ≤ range.1.toNat ∧ range.2.toNat ≤ range'.2.toNat ∧ range'.2.toNat ≤ bound) ∧
      ∀ i ∈ hs, (h i).pType = PT_LOAD →
        range'.1.toNat ≤ (h i).pVaddr.toNat ∧ (h i).limit ≤ range'.2.toNat := by
  induction hs generalizing range with
  | nil => exact ⟨⟨le_rfl, le_rfl, hrange⟩, fun i hi => nomatch hi⟩
  | cons first hs ih =>
      have hone : (updateRange (h first) range).1.toNat ≤ range.1.toNat ∧
          range.2.toNat ≤ (updateRange (h first) range).2.toNat ∧
          (updateRange (h first) range).2.toNat ≤ bound ∧
          ((h first).pType = PT_LOAD →
            (updateRange (h first) range).1.toNat ≤ (h first).pVaddr.toNat ∧
              (h first).limit ≤ (updateRange (h first) range).2.toNat) := by
        unfold updateRange
        by_cases hload : (h first).pType = PT_LOAD
        · have hlimit := hspace first List.mem_cons_self hload
          unfold Elf64Phdr.limit at hlimit ⊢
          rw [if_neg (not_not.mpr hload), toNat_MIN, toNat_MAX, BitVec.toNat_add,
            Nat.mod_eq_of_lt (by omega)]
          omega
        · rw [if_pos hload]
          exact ⟨le_rfl, le_rfl, hrange, fun hthis => absurd hthis hload⟩
      obtain ⟨hlow₁, hhigh₁, hbound₁, hfirst⟩ := hone
      obtain ⟨⟨hlow, hhigh, hend⟩, hrest⟩ := ih (updateRange (h first) range) hbound₁
        fun i hi => hspace i (List.mem_cons_of_mem first hi)
      refine ⟨⟨hlow.trans hlow₁, hhigh₁.trans hhigh, hend⟩, fun i hi hload => ?_⟩
      rcases List.mem_cons.mp hi with rfl | hi
      · obtain ⟨hle, hge⟩ := hfirst hload
        exact ⟨hlow.trans hle, hge.trans hhigh⟩
      · exact hrest i hi hload

/-- The pages that are asked for. -/
def pagesFor (memory : ByteMemory) (buffer : Addr) : ByteRange :=
  let range := calcLoadAddressRange memory buffer
  ⟨range.1, pageSize * (numPagesOf range).toNat⟩

/-- The segments go to the pages that the loader allocates: the range from the lowest to the
highest address takes each of them in. -/
theorem KernelFile.Loadable.inPages {file : KernelFile} {memory : ByteMemory} {buffer : Addr}
    (h : file.Loadable) (hat : file.At memory buffer) {i : Nat} (hi : IsLoad file.byte 0 i)
    {x : Addr} (hx : (header file.byte 0 i).segment.Contains x) :
    (pagesFor memory buffer).Contains x := by
  have hspace : ∀ j ∈ List.range (ePhnum memory buffer).toNat,
      (header memory buffer j).pType = PT_LOAD →
        (header memory buffer j).limit ≤ 2 ^ 64 - 0x1000 := by
    intro j hj hload
    have hj' := (hat.isLoad h).mp ⟨List.mem_range.mp hj, hload⟩
    rw [hat.header h hj'.1]
    exact h.inSpace j hj'
  obtain ⟨⟨-, -, hend⟩, hall⟩ := foldl_updateRange (by decide) (header memory buffer) _
    (MAX_UINT64, 0) (Nat.zero_le _) hspace
  obtain ⟨hhere, hload⟩ := (hat.isLoad h).mpr hi
  obtain ⟨hlow, hhigh⟩ := hall i (List.mem_range.mpr hhere) hload
  rw [hat.header h hi.1] at hlow hhigh
  change (calcLoadAddressRange memory buffer).1.toNat ≤ _ at hlow
  change _ ≤ (calcLoadAddressRange memory buffer).2.toNat at hhigh
  change (calcLoadAddressRange memory buffer).2.toNat ≤ _ at hend
  obtain ⟨hx, hx'⟩ := hx
  unfold Elf64Phdr.limit at hhigh
  simp only [Elf64Phdr.segment] at hx hx'
  have hcovers := @covers_pages (calcLoadAddressRange memory buffer).1
    (calcLoadAddressRange memory buffer).2 (by omega) hend
  exact ⟨hlow.trans hx, (Nat.lt_of_lt_of_le hx' hhigh).trans_le hcovers⟩

/-! ## The firmware -/

/-- What the firmware has given to the loader. -/
structure Granted where
  /-- The handle of the kernel file. -/
  kernelFile : Option Addr
  /-- The buffer of `AllocatePool`. -/
  pool : Option ByteRange
  /-- The pages of `AllocatePages`. -/
  pages : Option ByteRange

namespace Granted

/-- Nothing yet. -/
def nothing : Granted := ⟨none, none, none⟩

/-- The memory is the loader's. -/
def Owns (s : Granted) (x : Addr) : Prop :=
  ∃ r, (s.pool = some r ∨ s.pages = some r) ∧ r.Contains x

/-- What is the loader's is the same in both memories. -/
def Intact (s : Granted) (memory memory' : ByteMemory) : Prop :=
  ∀ x, s.Owns x → memory' x = memory x

/-- The name of the kernel file. -/
def kernelName : String := "\\kernel.elf"

/-- What is the loader's after a call. -/
def after (s : Granted) : (c : Call) → c.Answer → Granted
  | .openFile _ name _, (status, file) =>
      if efiError status = false ∧ name = kernelName then { s with kernelFile := some file } else s
  | .allocatePool size, (status, buffer) =>
      if efiError status then s else { s with pool := some ⟨buffer, size.toNat⟩ }
  | .allocatePages address pages, status =>
      if efiError status then s else { s with pages := some ⟨address, pageSize * pages.toNat⟩ }
  | .freePool _, _ => { s with pool := none }
  | _, _ => s

/-- The documented answers.  A buffer that is read into changes, and the kernel does what it
likes; else the firmware leaves alone what is the loader's. -/
def Expected (file : KernelFile) (s : Granted) (memory memory' : ByteMemory) :
    (c : Call) → c.Answer → Prop
  | .getFileInfo handle _, (status, size) => s.Intact memory memory' ∧
      (efiError status = false → s.kernelFile = some handle → size = file.size)
  | .allocatePool size, (status, buffer) => s.Intact memory memory' ∧
      (efiError status = false → (⟨buffer, size.toNat⟩ : ByteRange).Fits)
  | .readFile handle size buffer, status =>
      efiError status = false → s.kernelFile = some handle →
        ∀ k, k < size.toNat → k < file.size.toNat →
          memory' (buffer + BitVec.ofNat 64 k) = file.byte (BitVec.ofNat 64 k)
  | .allocatePages address pages, status => s.Intact memory memory' ∧
      (efiError status = false → ∀ r, s.pool = some r →
        ByteRange.Disjoint ⟨address, pageSize * pages.toNat⟩ r)
  | .enterKernel _ _, _ => True
  | _, _ => s.Intact memory memory'

end Granted

/-- The kernel is entered with its segments in place, and at its entry point if the lowest of
them begins with the file header. -/
def KernelFile.EntersAt (file : KernelFile) (memory : ByteMemory) (entryAddr : Addr) : Prop :=
  file.Placed memory ∧ (file.HeaderFirst → entryAddr = eEntry file.byte 0)

/-- The firmware is as documented, and the kernel is to be entered as it expects. -/
def firmware (file : KernelFile) : Protocol Question.Reply Granted where
  next := fun s e => s.after e.question.call e.answer.1
  allowed := fun _ q => ∀ entryAddr config, q.call = .enterKernel entryAddr config →
    file.EntersAt q.memory entryAddr
  expected := fun s e =>
    s.Expected file e.question.memory e.answer.2 e.question.call e.answer.1

/-! ## Calls that change nothing -/

section Quiet

variable {file : KernelFile} {s : Granted} {m m' m'' : ByteMemory}

/-- Memory that stays as it is from call to call stays as it is over both. -/
theorem Granted.Intact.trans (h : s.Intact m m') (h' : s.Intact m' m'') : s.Intact m m'' :=
  fun x hx => (h' x hx).trans (h x hx)

/-- The call neither gives nor takes nor uses what is the loader's. -/
def Call.Quiet : Call → Prop
  | .openFile _ name _ => name ≠ Granted.kernelName
  | .allocatePool _ => False
  | .readFile _ _ _ => False
  | .allocatePages _ _ => False
  | .freePool _ => False
  | .enterKernel _ _ => False
  | _ => True

/-- A quiet call opens no file and grants no memory. -/
theorem Call.Quiet.after {c : Call} (hc : c.Quiet) (answer : c.Answer) : s.after c answer = s := by
  cases c with
  | openFile root name mode => exact if_neg fun h => hc h.2
  | allocatePool | readFile | allocatePages | freePool | enterKernel => exact hc.elim
  | _ => rfl

/-- During a quiet call the firmware leaves what was granted as it is. -/
theorem Call.Quiet.intact {c : Call} (hc : c.Quiet) {answer : c.Answer}
    (h : s.Expected file m m' c answer) : s.Intact m m' := by
  cases c with
  | getFileInfo handle size => exact h.1
  | allocatePool | readFile | allocatePages | freePool | enterKernel => exact hc.elim
  | _ => exact h

/-- The part of the loader leaves alone what is the loader's, and so does the firmware
meanwhile. -/
def Quiet (file : KernelFile) {R : Type} (p : Boot R) : Prop :=
  ∀ s m, Boot.Keeps (firmware file) (fun _ m' s' => s' = s ∧ s.Intact m m') p m s

/-- A program of one quiet call. -/
theorem quiet_call {c : Call} (hc : c.Quiet) : Quiet file (call c) := by
  intro s m
  refine keeps_call (fun entryAddr config henter => ?_) fun answer m' h => ?_
  · change c = _ at henter
    rw [henter] at hc
    exact hc.elim
  · exact ⟨hc.after answer, hc.intact h⟩

/-- No call at all. -/
theorem quiet_pure {R : Type} (r : R) : Quiet file (pure r) :=
  fun _ _ => keeps_pure ⟨rfl, fun _ _ => rfl⟩

/-- Halting calls nobody. -/
theorem quiet_stop {R : Type} (why : Stop) : Quiet file (stop why : Boot R) :=
  fun _ _ => keeps_stop why

/-- Looking at memory calls nobody either. -/
theorem quiet_memory : Quiet file memory := fun _ _ => keeps_memory ⟨rfl, fun _ _ => rfl⟩

/-- Quiet programs compose. -/
theorem quiet_bind {R R' : Type} {p : Boot R} {f : R → Boot R'} (hp : Quiet file p)
    (hf : ∀ r, Quiet file (f r)) : Quiet file (p >>= f) := by
  refine fun s m => keeps_bind ((hp s m).mono fun r m' s' h => ?_)
  obtain ⟨rfl, hintact⟩ := h
  exact (hf r s' m').mono fun _ m'' s'' h' => ⟨h'.1, hintact.trans h'.2⟩

/-- A pointer that is followed, or the loader stops. -/
theorem quiet_deref {R : Type} (o : Option R) : Quiet file (deref o) := by
  cases o with
  | none => exact quiet_stop .undefined
  | some r => exact quiet_pure r

/-- `Print` writes to the console. -/
theorem quiet_print (format : String) (args : List PrintArg) : Quiet file (print format args) :=
  quiet_call trivial

/-- A failed call is printed before the loader halts. -/
theorem quiet_check (status : EfiStatus) (format : String) : Quiet file (check status format) := by
  unfold check
  split
  · exact quiet_bind (quiet_print _ _) fun _ => quiet_stop .halted
  · exact quiet_pure ()

/-- A call whose status is looked at. -/
theorem keeps_checked {R : Type} {post : R → ByteMemory → Granted → Prop} {status : EfiStatus}
    {format : String} {rest : Boot R} (hok : efiError status = false →
      Boot.Keeps (firmware file) post rest m s) :
    Boot.Keeps (firmware file) post (check status format >>= fun _ => rest) m s := by
  refine keeps_bind (keeps_check (fun _ entryAddr config henter => ?_) hok)
  cases henter

/-- `GetMemoryMap` fills its own buffer. -/
theorem quiet_getMemoryMap (map : MemoryMap) : Quiet file (getMemoryMap map) := by
  unfold getMemoryMap
  split
  · exact quiet_pure _
  · exact quiet_bind (quiet_call trivial) fun _ => quiet_pure _

/-- The memory map is written to its file line by line, by induction over the lines: the loader
gets no more memory by it, and what it has been given stays intact. -/
theorem quiet_saveDescriptors (buf : Vector (BitVec 8) 256) (map : MemoryMap) (handle : Addr)
    (rounds i : Nat) (iter : Addr) :
    Quiet file (saveDescriptors buf map handle rounds i iter) := by
  induction rounds generalizing i iter with
  | zero => exact quiet_stop .endlessLoop
  | succ rounds ih =>
      unfold saveDescriptors
      split
      · refine quiet_bind quiet_memory fun _ => ?_
        split
        · exact quiet_stop .undefined
        · refine quiet_bind (quiet_call trivial) fun len => ?_
          split
          · exact quiet_stop .undefined
          · exact quiet_bind (quiet_call trivial) fun _ => ih _ _
      · exact quiet_pure ()

/-- The whole of saving the memory map, from the volume to the last line: the loader gets no
more memory by it, and what it has been given stays intact. -/
theorem quiet_writeMemmap (imageHandle memmapBuf : Addr) (buf : Vector (BitVec 8) 256) :
    Quiet file (writeMemmap imageHandle memmapBuf buf) := by
  have hsave : ∀ memmap handle, Quiet file (saveMemoryMap buf memmap handle) := fun memmap handle =>
    quiet_bind (quiet_call trivial) fun _ => quiet_bind (quiet_print _ _) fun _ =>
      quiet_bind (quiet_saveDescriptors buf memmap handle _ _ _) fun _ => quiet_pure _
  have hroot : Quiet file (openRootDir imageHandle) :=
    quiet_bind (quiet_call trivial) fun _ => quiet_bind (quiet_deref _) fun _ =>
      quiet_bind (quiet_call trivial) fun _ => quiet_bind (quiet_deref _) fun _ =>
        quiet_bind (quiet_call trivial) fun _ => quiet_pure _
  have hmemmap : "\\memmap" ≠ Granted.kernelName := by decide
  refine quiet_bind (quiet_print _ _) fun _ => quiet_bind (quiet_getMemoryMap _) fun _ => ?_
  refine quiet_bind (quiet_check _ _) fun _ => quiet_bind hroot fun _ => ?_
  refine quiet_bind (quiet_check _ _) fun _ => quiet_bind (quiet_deref _) fun _ => ?_
  refine quiet_bind (quiet_call hmemmap) fun _ => quiet_bind (quiet_check _ _) fun _ => ?_
  refine quiet_bind (hsave _ _) fun _ => quiet_bind (quiet_check _ _) fun _ => ?_
  exact quiet_bind (quiet_call trivial) fun _ => quiet_bind (quiet_check _ _) fun _ => quiet_pure _

/-- Looking for the graphics output. -/
theorem quiet_openGOP : Quiet file openGOP :=
  quiet_bind (quiet_call trivial) fun _ => quiet_bind (quiet_deref _) fun _ =>
    quiet_bind (quiet_call trivial) fun _ => quiet_bind (quiet_call trivial) fun _ => quiet_pure _

/-- `ExitBootServices`, with the second attempt that the loader makes, gives it no more memory,
and what it has been given stays intact. -/
theorem quiet_leaveBootServices (imageHandle : Addr) (memmap : MemoryMap) :
    Quiet file (leaveBootServices imageHandle memmap) := by
  refine quiet_bind (quiet_call trivial) fun status => ?_
  split
  · refine quiet_bind (quiet_getMemoryMap memmap) fun result => ?_
    have hexit : Quiet file (do
        let status ← call (.exitBootServices imageHandle result.2.mapKey)
        check status "Could not exit boot service%r\n") :=
      quiet_bind (quiet_call trivial) fun _ => quiet_check _ _
    change Quiet file ((if efiError result.1 then _ else _) >>= _)
    split
    · exact quiet_bind (quiet_print _ _) fun _ => hexit
    · exact quiet_bind (quiet_pure _) fun _ => hexit
  · exact quiet_pure ()

end Quiet

/-! ## From the file to the kernel -/

section Kernel

variable {file : KernelFile} {s : Granted} {m m' : ByteMemory} {u : Uefi} {buffer : Addr}

/-- The buffer with the file. -/
def KernelFile.poolAt (file : KernelFile) (buffer : Addr) : ByteRange :=
  ⟨buffer, file.size.toNat⟩

/-- The file is in the buffer, which is the loader's, and no pages are. -/
structure InBuffer (file : KernelFile) (buffer : Addr) (m : ByteMemory) (s : Granted) : Prop where
  pool : s.pool = some (file.poolAt buffer)
  fits : (file.poolAt buffer).Fits
  content : file.At m buffer

/-- The buffer is the loader's, so what it holds stays. -/
theorem InBuffer.intact (h : InBuffer file buffer m s) (hintact : s.Intact m m') :
    file.At m' buffer := by
  intro k hk
  have hsame : m' (buffer + BitVec.ofNat 64 k) = m (buffer + BitVec.ofNat 64 k) :=
    hintact _ ⟨_, Or.inl h.pool, ByteRange.contains_add h.fits hk⟩
  rw [hsame]
  exact h.content k hk

/-- The kernel file is read into a buffer of its size, which the firmware has handed out for it:
afterwards the buffer holds the file. -/
theorem keeps_readKernel (rootDir : Addr) (m : ByteMemory) :
    Boot.Keeps (firmware file) (fun result m' s' => InBuffer file result.2 m' s')
      (readKernel rootDir) m Granted.nothing := by
  refine keeps_bind ((quiet_openGOP _ m).mono fun result m₁ s₁ h₁ => ?_)
  obtain ⟨rfl, -⟩ := h₁
  refine keeps_checked fun _ => keeps_bind (keeps_deref fun mode _ => ?_)
  refine keeps_bind ((quiet_print _ _ _ _).mono fun _ m₂ s₂ h₂ => ?_)
  obtain ⟨rfl, -⟩ := h₂
  refine keeps_bind ((quiet_print _ _ _ _).mono fun _ m₃ s₃ h₃ => ?_)
  obtain ⟨rfl, -⟩ := h₃
  refine keeps_bind (keeps_call (fun _ _ h => nomatch h) fun opened m₄ _ => ?_)
  refine keeps_checked fun hopened => ?_
  have hs₄ : Granted.nothing.after (.openFile rootDir "\\kernel.elf" 1) opened =
      ⟨some opened.2, none, none⟩ := if_pos ⟨hopened, rfl⟩
  change Boot.Keeps _ _ _ _ (Granted.nothing.after (.openFile rootDir "\\kernel.elf" 1) opened)
  rw [hs₄]
  refine keeps_bind (keeps_call (fun _ _ h => nomatch h) fun info m₅ hinfo => ?_)
  refine keeps_checked fun hok => ?_
  obtain ⟨status, size⟩ := info
  have hsize : size = file.size := hinfo.2 hok rfl
  subst hsize
  refine keeps_bind (keeps_call (fun _ _ h => nomatch h) fun allocated m₆ hallocated => ?_)
  refine keeps_checked fun hok => ?_
  obtain ⟨status, buffer⟩ := allocated
  have hs₆ : Granted.after ⟨some opened.2, none, none⟩ (.allocatePool file.size) (status, buffer) =
      ⟨some opened.2, some (file.poolAt buffer), none⟩ := if_neg (by rw [hok]; decide)
  change Boot.Keeps _ _ _ _
    (Granted.after ⟨some opened.2, none, none⟩ (.allocatePool file.size) (status, buffer))
  rw [hs₆]
  refine keeps_bind (keeps_call (fun _ _ h => nomatch h) fun status m₇ hread => ?_)
  refine keeps_checked fun hok => keeps_pure ⟨rfl, hallocated.2 ‹_›, fun k hk => ?_⟩
  exact hread hok rfl k hk hk

/-- Every segment is the loader's. -/
def KernelFile.Owned (file : KernelFile) (s : Granted) : Prop :=
  ∀ i, IsLoad file.byte 0 i → ∀ x, (header file.byte 0 i).segment.Contains x → s.Owns x

/-- The kernel is in memory. -/
structure InMemory (file : KernelFile) (first : Addr) (m : ByteMemory) (s : Granted) : Prop where
  placed : file.Placed m
  owned : file.Owned s
  lowest : ∀ i, Lowest file.byte 0 i → (header file.byte 0 i).pVaddr = first

/-- The segments lie in pages that belong to the loader, so they stay in place while the
firmware keeps its hands off these pages. -/
theorem InMemory.intact {first : Addr} (h : InMemory file first m s) (hfile : file.Loadable)
    (hintact : s.Intact m m') : InMemory file first m' s := by
  refine ⟨fun i hi => ?_, h.owned, h.lowest⟩
  refine (h.placed i hi).frame (hfile.filesz_le i hi) ?_ fun x hx => hintact x (h.owned i hi x hx)
  have hspace := hfile.inSpace i hi
  unfold Elf64Phdr.limit at hspace
  unfold ByteRange.Fits Elf64Phdr.segment
  simp only
  omega

/-- The segments are copied after the pages were allocated, and then each of them is in place,
byte for byte as in the file. -/
theorem copyLoadSegments_placed (hu : u.Documented) (hfile : file.Loadable)
    (hat : file.At m buffer) (hfits : (file.poolAt buffer).Fits)
    (hoff : ∀ i, IsLoad file.byte 0 i →
      (header file.byte 0 i).segment.Disjoint (file.poolAt buffer)) :
    file.Placed (copyLoadSegments u buffer m).2 := by
  have himage := hfile.image hat hfits hoff
  have hrounds : (ePhnum m buffer).toNat ≤ 0 + (2 ^ 16 - 1) := by
    have := (ePhnum m buffer).isLt
    omega
  obtain ⟨blocks, memory', hcopy, hcopied, -⟩ := copySegmentsFrom_copied hu himage _ 0 hrounds
    (Nat.zero_le _) ⟨fun i hi => absurd hi (Nat.not_lt_zero i), fun _ _ => rfl⟩
  intro i hi
  have hi' := (hat.isLoad hfile).mpr hi
  have hplace := hcopied.inPlace i hi'.1 hi'
  rw [hat.header hfile hi.1] at hplace
  have hmemory : (copyLoadSegments u buffer m).2 = memory' := congrArg Prod.snd hcopy
  rw [hmemory]
  refine ⟨fun k hk => ?_, hplace.zero⟩
  have hin := hfile.inFile i hi
  have hsplit : ∀ base : Addr, base + (header file.byte 0 i).pOffset + BitVec.ofNat 64 k =
      base + BitVec.ofNat 64 ((header file.byte 0 i).pOffset.toNat + k) := by
    intro base
    rw [BitVec.add_assoc, BitVec.ofNat_add, BitVec.ofNat_toNat, BitVec.setWidth_eq]
  have hzero : ∀ x : Addr, 0 + x = x := BitVec.zero_add
  rw [hplace.file k hk, hsplit, hsplit, hzero, hat _ (by omega)]

/-- The first address of the allocated pages is where the lowest segment begins, so the loader
and the file speak of the same place. -/
theorem first_of_lowest (hfile : file.Loadable) (hat : file.At m buffer)
    (hfits : (file.poolAt buffer).Fits)
    (hoff : ∀ i, IsLoad file.byte 0 i →
      (header file.byte 0 i).segment.Disjoint (file.poolAt buffer)) {i : Nat}
    (hi : Lowest file.byte 0 i) :
    (header file.byte 0 i).pVaddr = (calcLoadAddressRange m buffer).1 := by
  obtain ⟨⟨⟨j, hj, hfirst⟩, hleast⟩, -⟩ :=
    calcLoadAddressRange_isLeast (hfile.image hat hfits hoff)
  have hj' := (hat.isLoad hfile).mp hj
  rw [hat.header hfile hj'.1] at hfirst
  have hle := hi.2 j hj'
  have hge := hleast ⟨i, (hat.isLoad hfile).mpr hi.1, rfl⟩
  rw [hat.header hfile hi.1.1] at hge
  exact BitVec.eq_of_toNat_eq (by omega)

/-- The segments are copied to pages that do not overlap the file, which the firmware has handed
out for them, and stay there until the kernel is entered. -/
theorem keeps_loadSegments (hu : u.Documented) (hfile : file.Loadable)
    (h : InBuffer file buffer m s) :
    Boot.Keeps (firmware file) (fun first m' s' => InMemory file first m' s')
      (loadSegments u buffer) m s := by
  refine keeps_bind (keeps_memory ?_)
  refine keeps_bind (keeps_call (fun _ _ h => nomatch h) fun status m₁ hallocated => ?_)
  refine keeps_checked fun hok => ?_
  obtain ⟨hintact, hdisjoint⟩ := hallocated
  have hapart := hdisjoint hok _ h.pool
  have hs₁ : s.after (.allocatePages (calcLoadAddressRange m buffer).1
      (numPagesOf (calcLoadAddressRange m buffer))) status =
        { s with pages := some (pagesFor m buffer) } := if_neg (by rw [hok]; decide)
  change Boot.Keeps _ _ _ _ (s.after (.allocatePages _ _) status)
  rw [hs₁]
  have hoff : ∀ i, IsLoad file.byte 0 i →
      (header file.byte 0 i).segment.Disjoint (file.poolAt buffer) :=
    fun i hi x hx => hapart x (hfile.inPages h.content hi hx)
  have hcopied : InMemory file (calcLoadAddressRange m buffer).1
      (copyLoadSegments u buffer m₁).2 { s with pages := some (pagesFor m buffer) } :=
    ⟨copyLoadSegments_placed hu hfile (h.intact hintact) h.fits hoff,
      fun i hi x hx => ⟨_, Or.inr rfl, hfile.inPages h.content hi hx⟩,
      fun i hi => first_of_lowest hfile h.content h.fits hoff hi⟩
  refine keeps_bind (keeps_memory (keeps_bind (keeps_setMemory ?_)))
  refine keeps_bind ((quiet_print _ _ _ _).mono fun _ m₂ s₂ h₂ => ?_)
  obtain ⟨rfl, hintact₂⟩ := h₂
  refine keeps_bind (keeps_call (fun _ _ h => nomatch h) fun status m₃ hfreed => ?_)
  refine keeps_checked fun _ => keeps_pure ?_
  obtain ⟨hplaced, -, hlowest⟩ := (hcopied.intact hfile hintact₂).intact hfile hfreed
  exact ⟨hplaced, fun i hi x hx => ⟨_, Or.inr rfl, hfile.inPages h.content hi hx⟩, hlowest⟩

/-- The word 24 bytes behind the start of the lowest segment is the address at which the kernel
of the file is to be entered. -/
theorem InMemory.entersAt {first : Addr} (h : InMemory file first m s) (hfile : file.Loadable) :
    file.EntersAt m (m.load 8 (first + 24)) := by
  refine ⟨h.placed, fun hheader => ByteMemory.load_eq_iff.mpr fun k hk => ?_⟩
  obtain ⟨i, hlowest⟩ : ∃ i, Lowest file.byte 0 i := by
    obtain ⟨i, hi, hmin⟩ := Set.exists_min_image {i | IsLoad file.byte 0 i}
      (fun i => (header file.byte 0 i).pVaddr.toNat)
      ((Set.finite_lt_nat _).subset fun i hi => hi.1) hfile.nonempty
    exact ⟨i, hi, hmin⟩
  obtain ⟨hoffset, hfilesz⟩ := hheader i hlowest
  have hbyte := (h.placed i hlowest.1).file (24 + k) (by omega)
  rw [h.lowest i hlowest, hoffset, BitVec.ofNat_add, ← BitVec.add_assoc,
    ← BitVec.add_assoc] at hbyte
  exact hbyte

/-- The kernel is entered at the address that the word 24 bytes behind the first one holds,
which is where the entry point of the file is. -/
theorem keeps_startKernel {mode : GraphicsMode} {first : Addr} (h : InMemory file first m s)
    (hfile : file.Loadable) :
    Boot.Keeps (firmware file) (fun _ _ _ => True) (startKernel mode first) m s := by
  refine keeps_bind (keeps_memory ?_)
  cases kernelPixelFormat mode.pixelFormat with
  | none =>
      exact keeps_bind (keeps_call (fun _ _ h => nomatch h) fun _ _ _ => keeps_stop .halted)
  | some format =>
      refine keeps_bind (keeps_call (fun entryAddr config henter => ?_) fun _ m' _ => ?_)
      · cases henter
        exact h.entersAt hfile
      · exact keeps_bind (keeps_call (fun _ _ h => nomatch h) fun _ _ _ => keeps_stop .halted)

/-- **The kernel is entered as it was built.**  With documented firmware and a loadable kernel
file, whenever the loader enters the kernel every loadable segment is where the file wants it, in
all the bytes from the file and all the zeros behind them; and if the lowest segment begins with
the file header the kernel is entered at `e_entry`. -/
theorem uefiMain_entersKernel (hu : u.Documented) (hfile : file.Loadable)
    (imageHandle memmapBuf : Addr) (buf : Vector (BitVec 8) 256) (memory : ByteMemory)
    {trace : List (Exchange Question.Reply)} {rest : Dialogue Question.Reply _}
    (hrun : Runs (uefiMain u imageHandle memmapBuf buf memory) trace rest)
    (hanswered : (firmware file).Answered Granted.nothing trace) :
    ∀ e ∈ trace, ∀ entryAddr config, e.question.call = .enterKernel entryAddr config →
      file.EntersAt e.question.memory entryAddr := by
  have hkeeps : Boot.Keeps (firmware file) (fun _ _ _ => True)
      (uefiMain u imageHandle memmapBuf buf) memory Granted.nothing := by
    refine keeps_bind ((quiet_writeMemmap imageHandle memmapBuf buf _ memory).mono
      fun result m₁ s₁ h₁ => ?_)
    obtain ⟨rfl, -⟩ := h₁
    refine keeps_bind ((keeps_readKernel result.2 m₁).mono fun kernel m₂ s₂ h₂ => ?_)
    refine keeps_bind ((keeps_loadSegments hu hfile h₂).mono fun first m₃ s₃ h₃ => ?_)
    refine keeps_bind ((quiet_leaveBootServices imageHandle result.1 s₃ m₃).mono
      fun _ m₄ s₄ h₄ => ?_)
    obtain ⟨rfl, hintact⟩ := h₄
    exact keeps_startKernel (h₃.intact hfile hintact) hfile
  exact (Protocol.Keeps.sound hkeeps hrun hanswered).1.forall fun _ _ hallowed => hallowed

end Kernel

/-! ## A small kernel -/

/-- A kernel whose only segment is the whole file. -/
def smallKernel : KernelFile := ⟨fun a => (wholeFile[a.toNat]?).getD 0, 178⟩

/-- The small kernel of the example has one segment to load, in its second program header. -/
theorem smallKernel_isLoad (i : Nat) : IsLoad smallKernel.byte 0 i ↔ i = 1 := by
  have hcount : (ePhnum smallKernel.byte 0).toNat = 2 := by decide +kernel
  constructor
  · intro ⟨hi, hload⟩
    have hzero : (header smallKernel.byte 0 0).pType ≠ PT_LOAD := by decide +kernel
    rw [hcount] at hi
    rcases Nat.lt_succ_iff_lt_or_eq.mp hi with hlt | heq
    · rw [Nat.lt_one_iff.mp hlt] at hload
      exact absurd hload hzero
    · exact heq
  · intro hi
    subst hi
    exact ⟨by rw [hcount]; decide, by decide +kernel⟩

/-- What the loader asks of a file, the small kernel has: its header is complete and its segment
lies in the file. -/
theorem smallKernel_loadable : smallKernel.Loadable := by
  have hheader : header smallKernel.byte 0 1 = ⟨1, 0, 0x100000, 178, 180⟩ := by decide +kernel
  have honly : ∀ {P : Nat → Prop}, P 1 → ∀ i, IsLoad smallKernel.byte 0 i → P i := by
    intro P hP i hi
    rw [(smallKernel_isLoad i).mp hi]
    exact hP
  exact {
    fileHeader := by decide
    table := by decide +kernel
    nonempty := ⟨1, (smallKernel_isLoad 1).mpr rfl⟩
    filesz_le := honly (by rw [hheader]; decide)
    inFile := honly (by rw [hheader]; decide)
    inSpace := honly (by rw [hheader]; decide)
    apart := fun i j hi hj hne => absurd
      (((smallKernel_isLoad i).mp hi).trans ((smallKernel_isLoad j).mp hj).symm) hne }

/-- Firmware with the kernel file on its disk, its pool from 2 MiB on and pages below. -/
def smallFirmware : Machine Question.Reply Unit := fun _ q =>
  (match q with
    | ⟨.print _ _, m⟩ => ((), m)
    | ⟨.asciiPrint _ _, m⟩ => ((0 : BitVec 64), m)
    | ⟨.getMemoryMap size buffer, m⟩ => ((EFI_SUCCESS, ⟨size, buffer, 0, 7, 48, 1⟩), m)
    | ⟨.openLoadedImage _, m⟩ => (some 1, m)
    | ⟨.openFileSystem _, m⟩ => (some 2, m)
    | ⟨.openVolume _, m⟩ => (some 3, m)
    | ⟨.locateHandleBuffer, m⟩ => (some 4, m)
    | ⟨.openGraphicsOutput _, m⟩ => (some ⟨0x80000000, 0x300000, 1024, 768, 1, 1024⟩, m)
    | ⟨.freeHandleBuffer, m⟩ => ((), m)
    | ⟨.openFile _ _ _, m⟩ => ((EFI_SUCCESS, 5), m)
    | ⟨.writeFile _ _, m⟩ => ((), m)
    | ⟨.closeFile _, m⟩ => (EFI_SUCCESS, m)
    | ⟨.getFileInfo _ _, m⟩ => ((EFI_SUCCESS, smallKernel.size), m)
    | ⟨.allocatePool size, m⟩ =>
        ((if size.toNat ≤ 0x200000 then EFI_SUCCESS else EFI_BUFFER_TOO_SMALL, smallEhdr), m)
    | ⟨.readFile _ size buffer, m⟩ =>
        (EFI_SUCCESS, fun a => if a - buffer < size then smallKernel.byte (a - buffer) else m a)
    | ⟨.allocatePages address pages, m⟩ =>
        (if address.toNat + pageSize * pages.toNat ≤ 0x200000 then EFI_SUCCESS
          else EFI_BUFFER_TOO_SMALL, m)
    | ⟨.freePool _, m⟩ => (EFI_SUCCESS, m)
    | ⟨.exitBootServices _ _, m⟩ => (EFI_SUCCESS, m)
    | ⟨.enterKernel _ _, m⟩ => ((), m), ())

/-- The firmware of the example answers every dialogue as documented: what it hands out as pool
lies above its pages. -/
theorem smallFirmware_answered {R : Type} (p : Dialogue Question.Reply R) :
    (firmware smallKernel).Answered Granted.nothing (smallFirmware.exchanges p ()) := by
  refine @Machine.answered_exchanges _ _ _ _ _ smallFirmware () (firmware smallKernel)
    (fun _ t => ∀ r, t.pool = some r → 0x200000 ≤ r.first.toNat) (fun _ t q hpool => ?_) p
    Granted.nothing (fun r h => nomatch h)
  obtain ⟨call, m⟩ := q
  have hsame : t.Intact m m := fun _ _ => rfl
  cases call with
  | openFile root name mode =>
      refine ⟨hsame, ?_⟩
      change ∀ r, (Granted.after t (.openFile root name mode) (EFI_SUCCESS, 5)).pool = some r → _
      rw [Granted.after]
      split
      · exact hpool
      · exact hpool
  | getFileInfo handle size => exact ⟨⟨hsame, fun _ _ => rfl⟩, hpool⟩
  | allocatePool size =>
      have hat : smallEhdr.toNat = 0x200000 := by decide
      refine ⟨⟨hsame, fun hok => ?_⟩, ?_⟩
      · change efiError (if size.toNat ≤ 0x200000 then EFI_SUCCESS else EFI_BUFFER_TOO_SMALL) =
          false at hok
        have hroom : size.toNat ≤ 0x200000 := by
          by_contra hlarge
          rw [if_neg hlarge] at hok
          exact absurd hok (by decide)
        change smallEhdr.toNat + size.toNat ≤ 2 ^ 64
        omega
      · change ∀ r, (if efiError _ then t else { t with pool := some ⟨smallEhdr, _⟩ }).pool =
          some r → _
        split
        · exact hpool
        · intro r hr
          cases hr
          exact hat.ge
  | readFile handle size buffer =>
      refine ⟨fun _ _ k hk _ => ?_, hpool⟩
      have hback : buffer + BitVec.ofNat 64 k - buffer = BitVec.ofNat 64 k := by
        rw [BitVec.add_comm, BitVec.add_sub_cancel]
      have hlt : BitVec.ofNat 64 k < size := by
        rw [BitVec.lt_def, BitVec.toNat_ofNat]
        omega
      change (if _ then smallKernel.byte _ else m _) = _
      rw [hback, if_pos hlt]
  | allocatePages address pages =>
      refine ⟨⟨hsame, fun hok r hr x hx hx' => ?_⟩, ?_⟩
      · change efiError (if address.toNat + pageSize * pages.toNat ≤ 0x200000 then EFI_SUCCESS
          else EFI_BUFFER_TOO_SMALL) = false at hok
        have hbelow : address.toNat + pageSize * pages.toNat ≤ 0x200000 := by
          by_contra hlarge
          rw [if_neg hlarge] at hok
          exact absurd hok (by decide)
        have habove := hpool r hr
        obtain ⟨-, hx⟩ := hx
        obtain ⟨hx', -⟩ := hx'
        simp only at hx
        omega
      · change ∀ r, (if efiError _ then t else { t with pages := some _ }).pool = some r → _
        split
        · exact hpool
        · exact hpool
  | freePool buffer => exact ⟨hsame, fun r h => nomatch h⟩
  | enterKernel entryAddr config => exact ⟨trivial, hpool⟩
  | _ => exact ⟨hsame, hpool⟩

/-- The loader keeps to the protocol of the boot services on its way to the small kernel, which
it enters. -/
theorem uefiMain_keepsProtocol_small :
    ∃ trace rest,
      Runs (uefiMain plainUefi 0 0x1000 (Vector.replicate 256 0) fun _ => 0) trace rest ∧
      bootProtocol.Obeyed BootState.start trace ∧ 20 ≤ trace.length := by
  obtain ⟨rest, hrun⟩ := @Machine.runs_exchanges _ _ _ _ smallFirmware
    (uefiMain plainUefi 0 0x1000 (Vector.replicate 256 0) fun _ => 0) ()
  exact ⟨_, rest, hrun, uefiMain_keepsProtocol plainUefi 0 0x1000 (Vector.replicate 256 0)
    (fun _ => 0) _ rest hrun, by decide +kernel⟩

/-- The small kernel is entered at its entry point: the loader comes to an end against the
firmware of the example, and its one jump goes to 0x100000. -/
theorem uefiMain_entersKernel_small :
    ∃ trace rest,
      Runs (uefiMain plainUefi 0 0x1000 (Vector.replicate 256 0) fun _ => 0) trace rest ∧
      (∃ e ∈ trace, (match e.question.call with
        | .enterKernel entryAddr _ => entryAddr == 0x100000
        | _ => false) = true) ∧
      ∀ e ∈ trace, ∀ entryAddr config, e.question.call = .enterKernel entryAddr config →
        smallKernel.EntersAt e.question.memory entryAddr := by
  obtain ⟨rest, hrun⟩ := @Machine.runs_exchanges _ _ _ _ smallFirmware
    (uefiMain plainUefi 0 0x1000 (Vector.replicate 256 0) fun _ => 0) ()
  refine ⟨_, rest, hrun, ?_,
    uefiMain_entersKernel plainUefi_documented smallKernel_loadable 0 0x1000
    (Vector.replicate 256 0) (fun _ => 0) hrun (smallFirmware_answered _)⟩
  rw [← List.any_eq_true]
  decide +kernel

end Mikanos.Loader
