import Mikanos.Error
import Mikanos.Lib.BitField
import Mikanos.Lib.Cursor

/-!
# Taking the controller over from the firmware

The extended capabilities of the controller are a list in its registers: each has the
distance to the next one in double words, and the last one 0.  `RequestHCOwnership` looks
for USBLEGSUP, which has the capability id 1, asks for ownership, and waits.

The list is a cursor over double words (`Cursor.position`), with the offset in HCCPARAMS1 as
its first jump.  Each jump leads upwards, so a list that lies in a finite region has an end
(`findIf_finds`).

What the list consists of does not change, and `header` gives it.  The upper half of a
register, where USBLEGSUP has its semaphores, may change with every read: `value t` is what
read number `t` of the search and the hand-over returns there.
-/

namespace Mikanos.Xhci

open BitField

/-! ## Registers -/

/-- The registers of the controller: a region of the address space. -/
structure ExtendedRegisters where
  mmioBase : Addr
  size : Nat
  fits : mmioBase.toNat + size ≤ 2 ^ 64
  /-- The lower half of the register at an address. -/
  header : Addr → BitVec 16
  /-- The upper half, as read number `t` finds it. -/
  value : Nat → BitVec 16

/-- `bits.capability_id`. -/
def capabilityId (r : BitVec 32) : BitVec 8 := field r 0 8

/-- `bits.next_pointer`. -/
def nextPointer (r : BitVec 32) : BitVec 8 := field r 8 8

/-- `bits.hc_bios_owned_semaphore` of USBLEGSUP. -/
def hcBiosOwnedSemaphore (r : BitVec 32) : Bool := r.getLsbD 16

/-- `bits.hc_os_owned_semaphore` of USBLEGSUP. -/
def hcOsOwnedSemaphore (r : BitVec 32) : Bool := r.getLsbD 24

/-- `AddOrNull(p, d)` for a pointer to registers of four bytes. -/
def addOrNull (p : Addr) (d : Nat) : Addr :=
  if d = 0 then nullptr else p + BitVec.ofNat 64 (4 * d)

namespace ExtendedRegisters

/-- Read number `t`, of the register at `reg`. -/
def read (m : ExtendedRegisters) (t : Nat) (reg : Addr) : Except Fault (BitVec 32) :=
  if m.mmioBase.toNat ≤ reg.toNat ∧ reg.toNat + 4 ≤ m.mmioBase.toNat + m.size then
    .ok (m.value t ++ m.header reg)
  else .error .outOfBounds

/-- `ExtendedRegisterList{mmio_base, hccp}.begin()`, for the offset `xecp` in HCCPARAMS1. -/
def begin (m : ExtendedRegisters) (xecp : BitVec 16) : Addr := addOrNull m.mmioBase xecp.toNat

/-- `++it`, of an iterator that is not at the end. -/
def increment (m : ExtendedRegisters) (t : Nat) (reg : Addr) : Except Fault Addr := do
  let r ← m.read t reg
  return addOrNull reg (nextPointer r).toNat

/-- What `std::find_if` has seen, and where it stopped after so many reads. -/
structure Search where
  visited : List Addr
  found : Addr
  reads : Nat
  deriving DecidableEq

/-- `std::find_if(begin, end, …)` for capability id 1, from the iterator `reg` on. -/
def findIf (m : ExtendedRegisters) : Nat → Nat → Addr → Except Fault Search
  | 0, _, _ => .error .endlessLoop
  | fuel + 1, t, reg =>
      if reg = nullptr then .ok ⟨[], nullptr, t⟩
      else do
        let r ← m.read t reg
        if capabilityId r = 1 then return ⟨[reg], reg, t + 1⟩
        else do
          let next ← m.increment (t + 1) reg
          let rest ← m.findIf fuel (t + 2) next
          return { rest with visited := reg :: rest.visited }

/-- The loop that waits until the operating system owns the controller.  The result is the
last value read. -/
def awaitOwnership (m : ExtendedRegisters) (reg : Addr) : Nat → Nat → Except Fault (BitVec 32)
  | 0, _ => .error .endlessLoop
  | fuel + 1, t => do
      let r ← m.read t reg
      if hcBiosOwnedSemaphore r || !hcOsOwnedSemaphore r then m.awaitOwnership reg fuel (t + 1)
      else return r

/-- How the hand-over ended: the register, what was written to it, and the last value read
from it. -/
structure HandOver where
  reg : Addr
  written : Option (BitVec 32)
  last : BitVec 32
  deriving DecidableEq

/-- `RequestHCOwnership(mmio_base, hccp)` after the search. -/
def takeOwnership (m : ExtendedRegisters) (fuel : Nat) (s : Search) :
    Except Fault (Option HandOver) :=
  if s.found = nullptr then .ok none
  else do
    let r ← m.read s.reads s.found
    if hcOsOwnedSemaphore r then return some ⟨s.found, none, r⟩
    else do
      let last ← m.awaitOwnership s.found fuel (s.reads + 1)
      return some ⟨s.found, some (setField r 24 (1 : BitVec 1)), last⟩

/-- `RequestHCOwnership(mmio_base, hccp)`, for the offset `xecp` in HCCPARAMS1. -/
def requestHCOwnership (m : ExtendedRegisters) (xecp : BitVec 16) (fuel : Nat) :
    Except Fault (Option HandOver) := do
  let s ← m.findIf fuel 0 (m.begin xecp)
  m.takeOwnership fuel s

/-! ## The list of capabilities -/

/-- The address of double word `p`. -/
def addrOf (m : ExtendedRegisters) (p : Nat) : Addr := m.mmioBase + BitVec.ofNat 64 (4 * p)

/-- The distance to the next capability: from the start of the registers it is in HCCPARAMS1. -/
def jump (m : ExtendedRegisters) (xecp : BitVec 16) (p : Nat) : Nat :=
  if p = 0 then xecp.toNat else (field (m.header (m.addrOf p)) 8 8).toNat

/-- The double word of capability number `k`. -/
def offset (m : ExtendedRegisters) (xecp : BitVec 16) (k : Nat) : Nat :=
  Cursor.position (m.jump xecp) (k + 1)

/-- The id of capability number `k`. -/
def idOf (m : ExtendedRegisters) (xecp : BitVec 16) (k : Nat) : BitVec 8 :=
  field (m.header (m.addrOf (m.offset xecp k))) 0 8

/-- The list has `k` links. -/
def Linked (m : ExtendedRegisters) (xecp : BitVec 16) (k : Nat) : Prop :=
  ∀ i, i < k → m.jump xecp (Cursor.position (m.jump xecp) i) ≠ 0

/-- There is a capability number `k`. -/
def Present (m : ExtendedRegisters) (xecp : BitVec 16) (k : Nat) : Prop := m.Linked xecp (k + 1)

/-- The list lies in the region. -/
def ListInside (m : ExtendedRegisters) (xecp : BitVec 16) : Prop :=
  ∀ k, m.Present xecp k → 4 * m.offset xecp k + 4 ≤ m.size

/-- Capability number `k` is the first with id 1. -/
structure Selects (m : ExtendedRegisters) (xecp : BitVec 16) (k : Nat) : Prop where
  present : m.Present xecp k
  id : m.idOf xecp k = 1
  first : ∀ j, j < k → m.idOf xecp j ≠ 1

/-- The addresses of `n` capabilities from number `j` on. -/
def addressesFrom (m : ExtendedRegisters) (xecp : BitVec 16) (j n : Nat) : List Addr :=
  (List.range' j n).map fun i => m.addrOf (m.offset xecp i)

/-! ## Reads -/

variable {m : ExtendedRegisters} {xecp : BitVec 16}

/-- The low half of the register is the header of the capability. -/
@[simp]
theorem field_header (v h : BitVec 16) {lo : Nat} (hlo : lo + 8 ≤ 16) :
    field (v ++ h) lo 8 = field h lo 8 := by
  apply BitVec.eq_of_getLsbD_eq
  intro i hi
  rw [getLsbD_field, getLsbD_field, BitVec.getLsbD_append, if_pos (by omega)]

/-- The semaphore of the firmware is bit 16, the lowest bit of the high half. -/
theorem hcBiosOwnedSemaphore_append (v h : BitVec 16) :
    hcBiosOwnedSemaphore (v ++ h) = v.getLsbD 0 := by
  rw [hcBiosOwnedSemaphore, BitVec.getLsbD_append]
  rfl

/-- The semaphore of the driver is bit 24. -/
theorem hcOsOwnedSemaphore_append (v h : BitVec 16) :
    hcOsOwnedSemaphore (v ++ h) = v.getLsbD 8 := by
  rw [hcOsOwnedSemaphore, BitVec.getLsbD_append]
  rfl

/-- The position of a register counts words of four bytes from the base. -/
theorem addrOf_toNat {p : Nat} (h : 4 * p + 4 ≤ m.size) :
    (m.addrOf p).toNat = m.mmioBase.toNat + 4 * p := by
  have hfits := m.fits
  rw [addrOf, BitVec.toNat_add, BitVec.toNat_ofNat, Nat.mod_eq_of_lt (by omega : 4 * p < 2 ^ 64),
    Nat.mod_eq_of_lt (by omega)]

/-- A register behind the base is not at null. -/
theorem addrOf_ne_nullptr {p : Nat} (h : 4 * p + 4 ≤ m.size) (hp : p ≠ 0) :
    m.addrOf p ≠ nullptr := by
  intro hnull
  have haddr := addrOf_toNat h
  rw [hnull, show (nullptr : Addr).toNat = 0 from rfl] at haddr
  omega

/-- A pointer past the list's last register is null, any other one moves on. -/
theorem addOrNull_addrOf (m : ExtendedRegisters) (p d : Nat) :
    addOrNull (m.addrOf p) d = if d = 0 then nullptr else m.addrOf (p + d) := by
  unfold addOrNull addrOf
  split
  · rfl
  · rw [BitVec.add_assoc, ← BitVec.ofNat_add, Nat.mul_add]

/-- A read of the register at a position gives its header, and the changing half in front of it.
-/
theorem read_addrOf {p : Nat} (h : 4 * p + 4 ≤ m.size) (t : Nat) :
    m.read t (m.addrOf p) = .ok (m.value t ++ m.header (m.addrOf p)) := by
  have haddr := addrOf_toNat h
  exact if_pos ⟨by omega, by omega⟩

/-! ## The search -/

/-- The list goes on at an element whose distance to the next one is not 0. -/
theorem Linked.present {k : Nat} (h : m.Linked xecp k)
    (hjump : m.jump xecp (Cursor.position (m.jump xecp) k) ≠ 0) : m.Present xecp k := by
  intro i hi
  rcases Nat.lt_succ_iff_lt_or_eq.mp hi with hlt | rfl
  · exact h i hlt
  · exact hjump

/-- **A capability lies behind the one before it**, since its offset is a positive number of
words from there; so the list cannot come back to itself. -/
theorem Present.offset_lt {i k : Nat} (h : m.Present xecp k) (hik : i < k) :
    m.offset xecp i < m.offset xecp k := by
  have hjump := h (i + 1) (Nat.succ_lt_succ hik)
  have hmono : Cursor.position (m.jump xecp) (i + 2) ≤ Cursor.position (m.jump xecp) (k + 1) :=
    Cursor.position_mono (by omega)
  have hnext : Cursor.position (m.jump xecp) (i + 2) =
      m.offset xecp i + m.jump xecp (m.offset xecp i) := rfl
  have hmoves : m.jump xecp (m.offset xecp i) ≠ 0 := hjump
  unfold offset at *
  omega

/-- No capability lies at the base itself. -/
theorem Present.offset_ne_zero {k : Nat} (h : m.Present xecp k) : m.offset xecp k ≠ 0 := by
  have hpos : k + 1 ≤ m.offset xecp k := Cursor.le_position h
  omega

/-- The iterator after `j` steps. -/
def iterator (m : ExtendedRegisters) (xecp : BitVec 16) (j : Nat) : Addr :=
  addOrNull (m.addrOf (Cursor.position (m.jump xecp) j))
    (m.jump xecp (Cursor.position (m.jump xecp) j))

/-- The search starts at the first capability. -/
theorem iterator_zero (m : ExtendedRegisters) (xecp : BitVec 16) :
    m.iterator xecp 0 = m.begin xecp := by
  have hbase : m.addrOf 0 = m.mmioBase := BitVec.add_zero _
  rw [iterator, Cursor.position, hbase]
  rfl

/-- As long as the list goes on, the iterator of `ExtendedRegisterList` stands at the address of
its next element. -/
theorem iterator_present {j : Nat} (h : m.Present xecp j) :
    m.iterator xecp j = m.addrOf (m.offset xecp j) := by
  rw [iterator, addOrNull_addrOf, if_neg (h j (Nat.lt_succ_self j))]
  rfl

/-- Behind the last element the iterator is null. -/
theorem iterator_end {j : Nat} (h : m.jump xecp (Cursor.position (m.jump xecp) j) = 0) :
    m.iterator xecp j = nullptr := by
  rw [iterator, h]
  rfl

/-- `++it` at capability number `j`. -/
theorem increment_present (hin : m.ListInside xecp) {j : Nat} (h : m.Present xecp j) (t : Nat) :
    m.increment t (m.addrOf (m.offset xecp j)) = .ok (m.iterator xecp (j + 1)) := by
  have hjump : m.jump xecp (m.offset xecp j) =
      (field (m.header (m.addrOf (m.offset xecp j))) 8 8).toNat := if_neg h.offset_ne_zero
  rw [increment, read_addrOf (hin j h)]
  change Except.ok (addOrNull _ (field _ 8 8).toNat) = _
  rw [field_header _ _ (by omega), ← hjump]
  rfl

/-- What the search has found at its end. -/
inductive Outcome (m : ExtendedRegisters) (xecp : BitVec 16) (s : Search) : Prop
  | selected (k : Nat) (selects : m.Selects xecp k) (found : s.found = m.addrOf (m.offset xecp k))
      (reads : s.reads = 2 * k + 1)
  | absent (none : ∀ k, ¬ m.Selects xecp k) (found : s.found = nullptr)

/-- Behind the end of the list there is no capability. -/
theorem not_selects_of_end {j : Nat} (hend : m.jump xecp (Cursor.position (m.jump xecp) j) = 0)
    (hnone : ∀ i, i < j → m.idOf xecp i ≠ 1) (k : Nat) : ¬ m.Selects xecp k := by
  intro hk
  rcases Nat.lt_or_ge k j with hlt | hge
  · exact hnone k hlt hk.id
  · exact hk.present j (Nat.lt_succ_of_le hge) hend

/-- The search at a capability: it is selected, or the iterator moves on. -/
theorem findIf_present (hin : m.ListInside xecp) {j : Nat} (h : m.Present xecp j) (fuel : Nat) :
    m.findIf (fuel + 1) (2 * j) (m.iterator xecp j) =
      if m.idOf xecp j = 1 then .ok ⟨[m.iterator xecp j], m.iterator xecp j, 2 * j + 1⟩
      else do
        let rest ← m.findIf fuel (2 * (j + 1)) (m.iterator xecp (j + 1))
        return { rest with visited := m.iterator xecp j :: rest.visited } := by
  have hinside := hin j h
  rw [findIf, iterator_present h, if_neg (addrOf_ne_nullptr hinside h.offset_ne_zero),
    read_addrOf hinside, increment_present hin h]
  change (if field _ 0 8 = 1 then _ else _) = _
  rw [field_header _ _ (by omega)]
  rfl

/-- From capability number `j` on, the search ends in `s` with `n` iterations and more, after
a stretch of the list. -/
def EndsFrom (m : ExtendedRegisters) (xecp : BitVec 16) (j n : Nat) (s : Search) : Prop :=
  (∀ fuel, n ≤ fuel → m.findIf (fuel + 1) (2 * j) (m.iterator xecp j) = .ok s) ∧
    (∃ len, m.Linked xecp (j + len) ∧ s.visited = m.addressesFrom xecp j len) ∧
    m.Outcome xecp s

/-- At the end of the list nothing is found. -/
theorem endsFrom_end {j : Nat} (hlinked : m.Linked xecp j)
    (hend : m.jump xecp (Cursor.position (m.jump xecp) j) = 0)
    (hnone : ∀ i, i < j → m.idOf xecp i ≠ 1) (n : Nat) :
    m.EndsFrom xecp j n ⟨[], nullptr, 2 * j⟩ := by
  refine ⟨?_, ⟨0, hlinked, rfl⟩, .absent (not_selects_of_end hend hnone) rfl⟩
  intro fuel _
  rw [iterator_end hend]
  rfl

/-- **The search from capability number `j` on**, when none before it has the id 1.  The
induction is on the room `n` that is left above the iterator. -/
theorem findIf_from (hin : m.ListInside xecp) (n : Nat) :
    ∀ j, m.size < 4 * (Cursor.position (m.jump xecp) j + n) + 4 →
      m.Linked xecp j → (∀ i, i < j → m.idOf xecp i ≠ 1) → ∃ s, m.EndsFrom xecp j n s := by
  induction n with
  | zero =>
      intro j hroom hlinked hnone
      refine ⟨_, endsFrom_end hlinked ?_ hnone 0⟩
      by_contra hjump
      have hinside := hin j (hlinked.present hjump)
      have hbehind : Cursor.position (m.jump xecp) j < m.offset xecp j :=
        Nat.lt_add_of_pos_right (Nat.pos_of_ne_zero hjump)
      omega
  | succ n ih =>
      intro j hroom hlinked hnone
      by_cases hend : m.jump xecp (Cursor.position (m.jump xecp) j) = 0
      · exact ⟨_, endsFrom_end hlinked hend hnone (n + 1)⟩
      have hpresent := hlinked.present hend
      have hstep := findIf_present hin hpresent
      by_cases hid : m.idOf xecp j = 1
      · refine ⟨_, fun fuel _ => (hstep fuel).trans (if_pos hid), ⟨1, hpresent, ?_⟩,
          .selected j ⟨hpresent, hid, hnone⟩ (iterator_present hpresent) rfl⟩
        rw [iterator_present hpresent]
        rfl
      · have hbehind : Cursor.position (m.jump xecp) j + 1 ≤
            Cursor.position (m.jump xecp) (j + 1) :=
          Nat.add_le_add_left (Nat.pos_of_ne_zero hend) _
        obtain ⟨s, hs, ⟨len, hlast, hvisited⟩, houtcome⟩ := ih (j + 1) (by omega) hpresent
          fun i hi => by
            rcases Nat.lt_succ_iff_lt_or_eq.mp hi with hlt | rfl
            · exact hnone i hlt
            · exact hid
        refine ⟨{ s with visited := m.iterator xecp j :: s.visited }, ?_, ⟨len + 1, ?_, ?_⟩, ?_⟩
        · intro fuel hfuel
          obtain ⟨fuel, rfl⟩ : ∃ f, fuel = f + 1 := ⟨fuel - 1, by omega⟩
          rw [hstep, if_neg hid, hs fuel (by omega)]
          rfl
        · rwa [Nat.add_right_comm, Nat.add_assoc] at hlast
        · rw [hvisited, iterator_present hpresent]
          rfl
        · cases houtcome with
          | selected k hk hfound hreads => exact .selected k hk hfound hreads
          | absent hall hfound => exact .absent hall hfound

/-- The addresses of the capabilities of the list increase, by induction along the list. -/
theorem addressesFrom_increasing (hin : m.ListInside xecp) {n : Nat} (h : m.Linked xecp n) :
    (m.addressesFrom xecp 0 n).Pairwise (· < ·) := by
  unfold addressesFrom
  rw [List.pairwise_map]
  have hsorted : (List.range' 0 n).Pairwise (· < ·) := List.pairwise_lt_range'
  refine hsorted.imp_of_mem ?_
  intro i k _ hk hlt
  have hkn : k < n := by simpa using List.mem_range'.mp hk
  have hpresent : m.Present xecp k := fun l hl => h l (by omega)
  have hbefore : m.Present xecp i := fun l hl => h l (by omega)
  have hoffset := hpresent.offset_lt hlt
  rw [BitVec.lt_def, addrOf_toNat (hin i hbefore), addrOf_toNat (hin k hpresent)]
  omega

/-- **The search ends**, on increasing addresses: the capabilities lie inside the register
region, each behind the one before it, so there are only so many. -/
theorem findIf_ends (hin : m.ListInside xecp) : ∃ n s,
    (∀ fuel, n ≤ fuel → m.findIf fuel 0 (m.begin xecp) = .ok s) ∧
      s.visited.Pairwise (· < ·) ∧ m.Outcome xecp s := by
  obtain ⟨s, hs, ⟨len, hlast, hvisited⟩, houtcome⟩ := findIf_from hin m.size 0 (by omega)
    (fun _ h => absurd h (Nat.not_lt_zero _)) fun _ h => absurd h (Nat.not_lt_zero _)
  rw [Nat.zero_add] at hlast
  refine ⟨m.size + 1, s, ?_, ?_, houtcome⟩
  · intro fuel hfuel
    obtain ⟨fuel, rfl⟩ : ∃ f, fuel = f + 1 := ⟨fuel - 1, by omega⟩
    rw [← iterator_zero]
    exact hs fuel (by omega)
  · rw [hvisited]
    exact addressesFrom_increasing hin hlast

/-! ## The hand-over -/

/-- **The waiting loop ends with the controller owned**: the value that ends it has the
semaphore of the system set and that of the BIOS clear. -/
theorem awaitOwnership_owns {reg : Addr} {r : BitVec 32} (fuel : Nat) :
    ∀ t, m.awaitOwnership reg fuel t = .ok r →
      hcOsOwnedSemaphore r = true ∧ hcBiosOwnedSemaphore r = false := by
  induction fuel with
  | zero => intro t h; cases h
  | succ fuel ih =>
      intro t h
      obtain ⟨v, _, hv⟩ := bind_eq_ok.mp h
      by_cases hwait : (hcBiosOwnedSemaphore v || !hcOsOwnedSemaphore v) = true
      · rw [if_pos hwait] at hv
        exact ih (t + 1) hv
      · rw [if_neg hwait] at hv
        cases hv
        simpa [and_comm] using hwait

/-- The postcondition of the hand-over. -/
def Owned (h : HandOver) : Prop :=
  hcOsOwnedSemaphore h.last = true ∧ hcBiosOwnedSemaphore h.last = false

/-- **What a hand-over does**: the search comes to an end, on increasing addresses and at the
first capability with id 1, and the operating system owns the controller at the end. -/
structure HandsOver (m : ExtendedRegisters) (xecp : BitVec 16) : Prop where
  search : ∃ n s, (∀ fuel, n ≤ fuel → m.findIf fuel 0 (m.begin xecp) = .ok s) ∧
    s.visited.Pairwise (· < ·) ∧
    (∀ k, m.Selects xecp k → s.found = m.addrOf (m.offset xecp k)) ∧
    ((∀ k, ¬ m.Selects xecp k) → s.found = nullptr)
  owned : ∀ fuel h, m.requestHCOwnership xecp fuel = .ok (some h) → Owned h

/-- The upper half of USBLEGSUP as `RequestHCOwnership` finds it, when it is capability
number `k`. -/
def firstValue (m : ExtendedRegisters) (k : Nat) : BitVec 16 := m.value (2 * k + 1)

/-- The first legacy capability is one capability. -/
theorem Selects.unique {k l : Nat} (hk : m.Selects xecp k) (hl : m.Selects xecp l) : k = l := by
  rcases Nat.lt_trichotomy k l with h | h | h
  · exact absurd hk.id (hl.first k h)
  · exact h
  · exact absurd hl.id (hk.first l h)

/-- The search does not end at null when it has found one. -/
theorem Selects.ne_nullptr (hin : m.ListInside xecp) {k : Nat} (hk : m.Selects xecp k) :
    m.addrOf (m.offset xecp k) ≠ nullptr :=
  addrOf_ne_nullptr (hin k hk.present) hk.present.offset_ne_zero

/-- `RequestHCOwnership` after a search that selected capability number `k`: if the system owns
it already nothing is done, and otherwise the semaphore is set and the loop waits. -/
theorem takeOwnership_selected (hin : m.ListInside xecp) {s : Search} {k : Nat}
    (hk : m.Selects xecp k) (hfound : s.found = m.addrOf (m.offset xecp k))
    (hreads : s.reads = 2 * k + 1) (fuel : Nat) :
    m.takeOwnership fuel s =
      if (m.firstValue k).getLsbD 8 then
        .ok (some ⟨s.found, none, m.firstValue k ++ m.header s.found⟩)
      else do
        let last ← m.awaitOwnership s.found fuel (2 * k + 2)
        return some ⟨s.found, some (setField (m.firstValue k ++ m.header s.found) 24
          (1 : BitVec 1)), last⟩ := by
  have hread : m.read s.reads s.found = .ok (m.firstValue k ++ m.header s.found) := by
    rw [hfound, hreads]
    exact read_addrOf (hin k hk.present) _
  have hne : s.found ≠ nullptr := hfound ▸ hk.ne_nullptr hin
  rw [takeOwnership, if_neg hne, hread, hreads]
  change (if hcOsOwnedSemaphore _ = true then _ else _) = _
  rw [hcOsOwnedSemaphore_append]
  rfl

/-- More fuel does not change what a search finds, so the result does not depend on the bound
that the model puts on the loop. -/
theorem findIf_succ {s : Search} (fuel : Nat) : ∀ t reg, m.findIf fuel t reg = .ok s →
    m.findIf (fuel + 1) t reg = .ok s := by
  induction fuel generalizing s with
  | zero => intro t reg h; cases h
  | succ fuel ih =>
      intro t reg h
      rw [findIf] at h ⊢
      by_cases hnull : reg = nullptr
      · rwa [if_pos hnull] at h ⊢
      rw [if_neg hnull] at h ⊢
      obtain ⟨r, hread, h⟩ := bind_eq_ok.mp h
      refine bind_eq_ok.mpr ⟨r, hread, ?_⟩
      by_cases hid : capabilityId r = 1
      · rwa [if_pos hid] at h ⊢
      rw [if_neg hid] at h ⊢
      obtain ⟨next, hnext, h⟩ := bind_eq_ok.mp h
      obtain ⟨rest, hrest, h⟩ := bind_eq_ok.mp h
      exact bind_eq_ok.mpr ⟨next, hnext, bind_eq_ok.mpr ⟨rest, ih _ _ hrest, h⟩⟩

/-- **The search has a result**: more fuel gives the same. -/
theorem findIf_mono {s : Search} {t fuel fuel' : Nat} {reg : Addr} (hle : fuel ≤ fuel')
    (h : m.findIf fuel t reg = .ok s) : m.findIf fuel' t reg = .ok s := by
  induction hle with
  | refl => exact h
  | step _ ih => exact findIf_succ _ _ _ ih

/-- A hand-over follows a selection: the search has stopped at the first capability of the right
kind, and what is done is done to that one. -/
theorem requestHCOwnership_selected (hin : m.ListInside xecp) {fuel : Nat} {h : HandOver}
    (hrun : m.requestHCOwnership xecp fuel = .ok (some h)) :
    ∃ s k, m.Selects xecp k ∧ s.found = m.addrOf (m.offset xecp k) ∧ s.reads = 2 * k + 1 ∧
      m.takeOwnership fuel s = .ok (some h) := by
  obtain ⟨s, hs, htake⟩ := bind_eq_ok.mp hrun
  obtain ⟨n, s', hends, _, houtcome⟩ := findIf_ends hin
  have hsame : s = s' := by
    have hlong := findIf_mono (Nat.le_add_right fuel n) hs
    rw [hends _ (Nat.le_add_left n fuel)] at hlong
    cases hlong
    rfl
  subst hsame
  cases houtcome with
  | selected k hk hfound hreads => exact ⟨s, k, hk, hfound, hreads, htake⟩
  | absent _ hfound =>
      rw [takeOwnership, if_pos hfound] at htake
      cases htake

/-- **The hand-over is right exactly when USBLEGSUP is not first found with both semaphores
set.**  `RequestHCOwnership` returns early when the operating system's semaphore is set, and
does not look at the firmware's. -/
theorem handsOver_iff (m : ExtendedRegisters) (xecp : BitVec 16) (hin : m.ListInside xecp) :
    m.HandsOver xecp ↔ ∀ k, m.Selects xecp k →
      ¬ ((m.firstValue k).getLsbD 8 = true ∧ (m.firstValue k).getLsbD 0 = true) := by
  constructor
  · intro hhands k hk ⟨hos, hbios⟩
    obtain ⟨n, s, hends, _, houtcome⟩ := findIf_ends hin
    cases houtcome with
    | absent hnone _ => exact hnone k hk
    | selected l hl hfound hreads =>
        cases hk.unique hl
        have htake := takeOwnership_selected hin hk hfound hreads n
        rw [if_pos hos] at htake
        have howned := hhands.owned n _ (bind_eq_ok.mpr ⟨s, hends n (Nat.le_refl n), htake⟩)
        have hlast : hcBiosOwnedSemaphore (m.firstValue k ++ m.header s.found) = false := howned.2
        rw [hcBiosOwnedSemaphore_append, hbios] at hlast
        cases hlast
  · intro hfirst
    constructor
    case search =>
      obtain ⟨n, s, hends, hincreasing, houtcome⟩ := findIf_ends hin
      refine ⟨n, s, hends, hincreasing, ?_, ?_⟩
      · intro k hk
        cases houtcome with
        | selected l hl hfound _ => exact hk.unique hl ▸ hfound
        | absent hnone _ => exact absurd hk (hnone k)
      · intro hnone
        cases houtcome with
        | selected l hl _ _ => exact absurd hl (hnone l)
        | absent _ hfound => exact hfound
    case owned =>
      intro fuel h hrun
      obtain ⟨s, k, hk, hfound, hreads, htake⟩ := requestHCOwnership_selected hin hrun
      rw [takeOwnership_selected hin hk hfound hreads] at htake
      by_cases hos : (m.firstValue k).getLsbD 8 = true
      · have hbios : (m.firstValue k).getLsbD 0 = false :=
          Bool.eq_false_iff.mpr fun hbios => hfirst k hk ⟨hos, hbios⟩
        rw [if_pos hos] at htake
        cases htake
        exact ⟨hcOsOwnedSemaphore_append _ _ ▸ hos, hcBiosOwnedSemaphore_append _ _ ▸ hbios⟩
      · rw [if_neg hos] at htake
        obtain ⟨last, hlast, htake⟩ := bind_eq_ok.mp htake
        cases htake
        exact awaitOwnership_owns fuel _ hlast

/-! ## A controller that is claimed twice -/

/-- Registers with USBLEGSUP at offset 0x40 as their only capability. -/
def legacyRegisters (value : Nat → BitVec 16) : ExtendedRegisters where
  mmioBase := 0xfebf0000
  size := 0x1000
  fits := by decide
  header _ := 0x0001
  value := value

/-- The capability of the example lies in the register region, whatever values its register
takes. -/
theorem legacyRegisters_listInside (value : Nat → BitVec 16) :
    (legacyRegisters value).ListInside 0x10 := by
  intro k hk
  have hstop : (legacyRegisters value).jump 0x10 16 = 0 := by
    show (field (0x0001 : BitVec 16) 8 8).toNat = 0
    decide
  cases k with
  | zero => exact (by decide : 4 * 16 + 4 ≤ 0x1000)
  | succ k => exact absurd hstop (hk 1 (by omega))

/-- The firmware has set both semaphores: the function returns with the controller owned
twice. -/
theorem handsOver_fails_bothOwned : ¬ (legacyRegisters fun _ => 0x0101).HandsOver 0x10 := by
  intro h
  have howned := h.owned 2 ⟨0xfebf0040, none, 0x01010001⟩ (by decide)
  exact absurd howned.2 (by decide)

/-- The usual start: the firmware's semaphore is set, and cleared after the write, so the wait
ends with the controller owned. -/
theorem handsOver_iff_firmware :
    (legacyRegisters fun t => if t < 3 then 0x0001 else 0x0100).HandsOver 0x10 := by
  refine (handsOver_iff _ 0x10 (legacyRegisters_listInside _)).mpr fun k hk hboth => ?_
  cases k with
  | zero => exact absurd hboth.1 (by decide)
  | succ k =>
      have hlinked := hk.present 1 (by omega)
      exact hlinked (by decide)

end ExtendedRegisters

end Mikanos.Xhci
