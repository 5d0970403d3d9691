import Mikanos.Lib.ByteMemory
import Mikanos.Error
import Mathlib.Order.Bounds.Basic

/-!
# The kernel image and where it goes

The boot loader reads `kernel.elf` into a buffer and takes everything it needs
from there: the two fields of the file header that locate the program headers,
and from each program header its type, where the segment lies in the file, and
where in memory.  The program headers are an array of `Elf64_Phdr` behind the
offset `e_phoff`.

`CalcLoadAddressRange` folds the loadable segments into one range.  `Covered`
is what its loop keeps: nothing yet, or the least start and the greatest end of
the segments seen.
-/

namespace Mikanos.Loader

/-- `PT_LOAD`. -/
def PT_LOAD : BitVec 32 := 1

/-- `MAX_UINT64`. -/
def MAX_UINT64 : BitVec 64 := BitVec.allOnes 64

/-- `sizeof(Elf64_Ehdr)`. -/
def sizeofEhdr : Nat := 64

/-- `sizeof(Elf64_Phdr)`. -/
def sizeofPhdr : Nat := 56

/-- The members of `Elf64_Phdr` that the loader reads. -/
structure Elf64Phdr where
  pType : BitVec 32
  pOffset : BitVec 64
  pVaddr : Addr
  pFilesz : BitVec 64
  pMemsz : BitVec 64
  deriving DecidableEq, Repr

/-- `ehdr->e_phoff`. -/
def ePhoff (memory : ByteMemory) (ehdr : Addr) : BitVec 64 := memory.load 8 (ehdr + 32)

/-- `ehdr->e_phnum`. -/
def ePhnum (memory : ByteMemory) (ehdr : Addr) : BitVec 16 := memory.load 2 (ehdr + 56)

/-- `&phdr[i]`. -/
def phdrAddr (phdr : Addr) (i : Nat) : Addr := phdr + BitVec.ofNat 64 (sizeofPhdr * i)

/-- `phdr[i]`. -/
def phdrAt (memory : ByteMemory) (phdr : Addr) (i : Nat) : Elf64Phdr where
  pType := memory.load 4 (phdrAddr phdr i)
  pOffset := memory.load 8 (phdrAddr phdr i + 8)
  pVaddr := memory.load 8 (phdrAddr phdr i + 16)
  pFilesz := memory.load 8 (phdrAddr phdr i + 32)
  pMemsz := memory.load 8 (phdrAddr phdr i + 40)

/-- The program header number `i` of the file at `ehdr`. -/
def header (memory : ByteMemory) (ehdr : Addr) (i : Nat) : Elf64Phdr :=
  phdrAt memory (ehdr + ePhoff memory ehdr) i

/-- `MIN(a, b)`. -/
def MIN (a b : BitVec 64) : BitVec 64 := if a < b then a else b

/-- `MAX(a, b)`. -/
def MAX (a b : BitVec 64) : BitVec 64 := if a > b then a else b

/-- The body of the loop of `CalcLoadAddressRange`. -/
def updateRange (h : Elf64Phdr) (range : Addr × Addr) : Addr × Addr :=
  if h.pType ≠ PT_LOAD then range
  else (MIN range.1 h.pVaddr, MAX range.2 (h.pVaddr + h.pMemsz))

/-- `CalcLoadAddressRange(ehdr, &first, &last)`. -/
def calcLoadAddressRange (memory : ByteMemory) (ehdr : Addr) : Addr × Addr :=
  let phdr := ehdr + ePhoff memory ehdr
  (List.range (ePhnum memory ehdr).toNat).foldl
    (fun range i => updateRange (phdrAt memory phdr i) range) (MAX_UINT64, 0)

/-! ## Loadable images -/

/-- The header number `i` is one of a loadable segment. -/
def IsLoad (memory : ByteMemory) (ehdr : Addr) (i : Nat) : Prop :=
  i < (ePhnum memory ehdr).toNat ∧ (header memory ehdr i).pType = PT_LOAD

/-- The memory range of a segment. -/
def Elf64Phdr.segment (h : Elf64Phdr) : ByteRange := ⟨h.pVaddr, h.pMemsz.toNat⟩

/-- An image in a buffer of `size` bytes at `ehdr`, with at least one loadable
segment, whose loadable segments fit the file, the address space and each
other. -/
structure LoadableImage (memory : ByteMemory) (ehdr : Addr) (size : Nat) : Prop where
  buffer : (⟨ehdr, size⟩ : ByteRange).Fits
  fileHeader : sizeofEhdr ≤ size
  table : (ePhoff memory ehdr).toNat + sizeofPhdr * (ePhnum memory ehdr).toNat ≤ size
  nonempty : ∃ i, IsLoad memory ehdr i
  filesz_le : ∀ i, IsLoad memory ehdr i →
    (header memory ehdr i).pFilesz.toNat ≤ (header memory ehdr i).pMemsz.toNat
  inFile : ∀ i, IsLoad memory ehdr i →
    (header memory ehdr i).pOffset.toNat + (header memory ehdr i).pFilesz.toNat ≤ size
  inSpace : ∀ i, IsLoad memory ehdr i →
    (header memory ehdr i).pVaddr.toNat + (header memory ehdr i).pMemsz.toNat ≤ 2 ^ 64 - 0x1000
  apart : ∀ i j, IsLoad memory ehdr i → IsLoad memory ehdr j → i ≠ j →
    (header memory ehdr i).segment.Disjoint (header memory ehdr j).segment
  offFile : ∀ i, IsLoad memory ehdr i →
    (header memory ehdr i).segment.Disjoint ⟨ehdr, size⟩

/-! ## The range of the segments -/

variable {memory : ByteMemory} {ehdr : Addr} {size : Nat}

/-- The end of a segment. -/
def Elf64Phdr.limit (h : Elf64Phdr) : Nat := h.pVaddr.toNat + h.pMemsz.toNat

/-- `MIN` of the source, on numbers. -/
theorem toNat_MIN (a b : BitVec 64) : (MIN a b).toNat = min a.toNat b.toNat := by
  unfold MIN
  split
  case isTrue h => exact (Nat.min_eq_left (Nat.le_of_lt h)).symm
  case isFalse h => exact (Nat.min_eq_right (BitVec.not_lt.mp h)).symm

/-- `MAX` of the source, on numbers. -/
theorem toNat_MAX (a b : BitVec 64) : (MAX a b).toNat = max a.toNat b.toNat := by
  unfold MAX
  split
  case isTrue h => exact (Nat.max_eq_left (Nat.le_of_lt h)).symm
  case isFalse h => exact (Nat.max_eq_right (BitVec.not_lt.mp h)).symm

/-- What the loop keeps for the first `n` headers. -/
structure Covered (memory : ByteMemory) (ehdr : Addr) (n : Nat) (range : Addr × Addr) : Prop where
  le : ∀ i < n, IsLoad memory ehdr i → range.1.toNat ≤ (header memory ehdr i).pVaddr.toNat ∧
    (header memory ehdr i).limit ≤ range.2.toNat
  first : range.1 = MAX_UINT64 ∨
    ∃ i, IsLoad memory ehdr i ∧ range.1.toNat = (header memory ehdr i).pVaddr.toNat
  last : range.2 = 0 ∨
    ∃ i, IsLoad memory ehdr i ∧ range.2.toNat = (header memory ehdr i).limit

/-- The end of a segment does not wrap around. -/
theorem LoadableImage.limit_eq (h : LoadableImage memory ehdr size) {i : Nat}
    (hi : IsLoad memory ehdr i) :
    ((header memory ehdr i).pVaddr + (header memory ehdr i).pMemsz).toNat
      = (header memory ehdr i).limit := by
  have hspace := h.inSpace i hi
  rw [BitVec.toNat_add, Nat.mod_eq_of_lt (by omega)]
  rfl

/-- One more header: a segment to load moves the borders of the range outwards until it lies
between them, and the headers before it stay covered; another header changes nothing. -/
theorem Covered.update (h : LoadableImage memory ehdr size) {n : Nat}
    (hn : n < (ePhnum memory ehdr).toNat) {range : Addr × Addr}
    (hcovered : Covered memory ehdr n range) :
    Covered memory ehdr (n + 1) (updateRange (header memory ehdr n) range) := by
  unfold updateRange
  by_cases hload : (header memory ehdr n).pType = PT_LOAD
  · rw [if_neg (not_not.mpr hload)]
    have hn' : IsLoad memory ehdr n := ⟨hn, hload⟩
    have hfirst := toNat_MIN range.1 (header memory ehdr n).pVaddr
    have hlast := toNat_MAX range.2
      ((header memory ehdr n).pVaddr + (header memory ehdr n).pMemsz)
    rw [h.limit_eq hn'] at hlast
    refine ⟨?_, ?_, ?_⟩
    · intro i hi hi'
      simp only [hfirst, hlast]
      rcases Nat.lt_succ_iff_lt_or_eq.mp hi with hlt | heq
      · obtain ⟨hle, hge⟩ := hcovered.le i hlt hi'
        exact ⟨by omega, by omega⟩
      · subst heq
        exact ⟨by omega, by omega⟩
    · by_cases hlt : range.1 < (header memory ehdr n).pVaddr
      · have hsame : MIN range.1 (header memory ehdr n).pVaddr = range.1 := if_pos hlt
        simp only [hsame]
        exact hcovered.first
      · have hnew : MIN range.1 (header memory ehdr n).pVaddr
            = (header memory ehdr n).pVaddr := if_neg hlt
        simp only [hnew]
        exact Or.inr ⟨n, hn', rfl⟩
    · by_cases hgt : range.2 > (header memory ehdr n).pVaddr + (header memory ehdr n).pMemsz
      · have hsame : MAX range.2
            ((header memory ehdr n).pVaddr + (header memory ehdr n).pMemsz) = range.2 :=
          if_pos hgt
        simp only [hsame]
        exact hcovered.last
      · have hnew : MAX range.2
            ((header memory ehdr n).pVaddr + (header memory ehdr n).pMemsz)
              = (header memory ehdr n).pVaddr + (header memory ehdr n).pMemsz := if_neg hgt
        simp only [hnew]
        exact Or.inr ⟨n, hn', h.limit_eq hn'⟩
  · rw [if_pos hload]
    refine ⟨?_, hcovered.first, hcovered.last⟩
    intro i hi hi'
    rcases Nat.lt_succ_iff_lt_or_eq.mp hi with hlt | heq
    · exact hcovered.le i hlt hi'
    · subst heq
      exact absurd hi'.2 hload

/-- The loop over the first `n` headers. -/
theorem covered_foldl (h : LoadableImage memory ehdr size) (n : Nat)
    (hn : n ≤ (ePhnum memory ehdr).toNat) :
    Covered memory ehdr n ((List.range n).foldl
      (fun range i => updateRange (header memory ehdr i) range) (MAX_UINT64, 0)) := by
  induction n with
  | zero => exact ⟨fun i hi => absurd hi (Nat.not_lt_zero i), Or.inl rfl, Or.inl rfl⟩
  | succ n ih =>
      rw [List.range_succ, List.foldl_append]
      exact (ih (Nat.le_of_succ_le hn)).update h hn

/-- **The load address range** is the tightest one around the segments: it
begins with the least start and ends with the greatest end. -/
theorem calcLoadAddressRange_isLeast (h : LoadableImage memory ehdr size) :
    IsLeast {a | ∃ i, IsLoad memory ehdr i ∧ a = (header memory ehdr i).pVaddr.toNat}
        (calcLoadAddressRange memory ehdr).1.toNat ∧
      IsGreatest {a | ∃ i, IsLoad memory ehdr i ∧ a = (header memory ehdr i).limit}
        (calcLoadAddressRange memory ehdr).2.toNat := by
  have hcovered : Covered memory ehdr _ (calcLoadAddressRange memory ehdr) :=
    covered_foldl h _ (Nat.le_refl _)
  obtain ⟨i, hi⟩ := h.nonempty
  have hle := hcovered.le i hi.1 hi
  have hspace := h.inSpace i hi
  refine ⟨⟨?_, ?_⟩, ?_, ?_⟩
  · rcases hcovered.first with hmax | hfirst
    · rw [hmax] at hle
      have hmaxNat : MAX_UINT64.toNat = 2 ^ 64 - 1 := by decide
      omega
    · exact hfirst
  · intro a ⟨j, hj, ha⟩
    rw [ha]
    exact (hcovered.le j hj.1 hj).1
  · rcases hcovered.last with hzero | hlast
    · refine ⟨i, hi, ?_⟩
      rw [hzero] at hle ⊢
      exact (Nat.le_zero.mp hle.2).symm
    · exact hlast
  · intro a ⟨j, hj, ha⟩
    rw [ha]
    exact (hcovered.le j hj.1 hj).2

end Mikanos.Loader
