import Mikanos.Error
import Mikanos.Lib.BitField
import Mathlib.Data.Fin.VecNotation

/-!
# Transfer Request Blocks

A TRB is four 32-bit words.  The source overlays each kind of TRB with a
packed record of bit-fields; here a bit-field is `Trb.bits` at its word and
bit position, and the constructors below perform the source's assignments in
order with `Trb.setBits`.  The three fields that every layout shares are the
cycle bit (word 3, bit 0), the type (word 3, bits 10 to 15) and the 64-bit
parameter in words 0 and 1.
-/

namespace Mikanos.Xhci

open BitField

/-- `union TRB`. -/
@[ext] structure Trb where
  data : Fin 4 → BitVec 32
  deriving DecidableEq

namespace Trb

/-- Words are numbered by literals. -/
instance : NeZero 4 := ⟨by decide⟩

/-- A TRB of four zero words (`data{}`). -/
def zero : Trb := ⟨fun _ => 0⟩

/-- The bit-field `lo .. lo + len - 1` of word `i`. -/
def bits (t : Trb) (i : Fin 4) (lo len : Nat) : BitVec len := field (t.data i) lo len

/-- Assignment to a bit-field of word `i`. -/
def setBits (t : Trb) (i : Fin 4) (lo : Nat) {len : Nat} (v : BitVec len) : Trb :=
  ⟨Function.update t.data i (setField (t.data i) lo v)⟩

/-- One 32-bit store. -/
def setWord (t : Trb) (i : Fin 4) (v : BitVec 32) : Trb := ⟨Function.update t.data i v⟩

/-- The 64-bit field in words 0 and 1. -/
def parameter (t : Trb) : BitVec 64 := t.data 1 ++ t.data 0

/-- Assignment to the 64-bit field in words 0 and 1. -/
def setParameter (t : Trb) (v : BitVec 64) : Trb :=
  (t.setWord 0 (v.extractLsb' 0 32)).setWord 1 (v.extractLsb' 32 32)

/-- The pointer held in bits 4 to 63 of the parameter. -/
def pointer60 (t : Trb) : Addr := (field t.parameter 4 60).setWidth 64 <<< 4

/-- Assignment to the pointer held in bits 4 to 63 of the parameter. -/
def setPointer60 (t : Trb) (p : Addr) : Trb :=
  t.setParameter (setField t.parameter 4 ((p >>> 4).setWidth 60))

/-- `bits.cycle_bit`. -/
def cycleBit (t : Trb) : Bool := (t.data 3).getLsbD 0

/-- `bits.trb_type`. -/
def trbType (t : Trb) : BitVec 6 := t.bits 3 10 6

/-- The word `CopyToLast` writes last: `(w & 0xfffffffe) | cycle_bit`. -/
def stampWord (w : BitVec 32) (cycle : Bool) : BitVec 32 :=
  (w &&& 0xfffffffe) ||| (BitVec.ofBool cycle).setWidth 32

/-- A TRB with its cycle bit replaced. -/
def stamp (t : Trb) (cycle : Bool) : Trb := t.setWord 3 (stampWord (t.data 3) cycle)

/-! ## Reading fields back -/

/-- A bit field reads back as it was written, when it lies within its word. -/
theorem bits_setBits_same (t : Trb) (i : Fin 4) (lo : Nat) {len : Nat} (v : BitVec len)
    (hfit : lo + len ≤ 32) : (t.setBits i lo v).bits i lo len = v := by
  simp [bits, setBits, field_setField_same _ _ _ hfit]

/-- **Fields of a TRB are independent**: a write to one leaves every other alone, in another
word or beside it in the same one.  Each fact about a TRB that the driver builds comes down to
this and `bits_setBits_same`. -/
theorem bits_setBits_of_disjoint (t : Trb) (i j : Fin 4) (lo lo' : Nat) {len len' : Nat}
    (v : BitVec len) (h : i ≠ j ∨ lo' + len' ≤ lo ∨ lo + len ≤ lo') :
    (t.setBits i lo v).bits j lo' len' = t.bits j lo' len' := by
  by_cases hij : j = i
  · subst hij
    have hdis := h.resolve_left (fun hne => hne rfl)
    simp [bits, setBits, field_setField_of_disjoint _ _ _ _ hdis]
  · simp [bits, setBits, Function.update_of_ne hij]

/-- The word that was written. -/
@[simp] theorem setWord_same (t : Trb) (i : Fin 4) (v : BitVec 32) :
    (t.setWord i v).data i = v := by
  simp [setWord]

theorem setWord_of_ne (t : Trb) {i j : Fin 4} (v : BitVec 32) (h : j ≠ i) :
    (t.setWord i v).data j = t.data j := by
  simp [setWord, Function.update_of_ne h]

/-- A field lies in one word, and the other words may change. -/
theorem bits_setWord_of_ne (t : Trb) {i j : Fin 4} (v : BitVec 32) (lo len : Nat) (h : j ≠ i) :
    (t.setWord i v).bits j lo len = t.bits j lo len := by
  rw [bits, setWord_of_ne t v h, bits]

/-- The word in which a field was set. -/
@[simp] theorem data_setBits_same (t : Trb) (i : Fin 4) (lo : Nat) {len : Nat}
    (v : BitVec len) : (t.setBits i lo v).data i = setField (t.data i) lo v := by
  simp [setBits]

theorem data_setBits_of_ne (t : Trb) {i j : Fin 4} (lo : Nat) {len : Nat} (v : BitVec len)
    (h : j ≠ i) : (t.setBits i lo v).data j = t.data j := by
  simp [setBits, Function.update_of_ne h]

/-- The parameter depends on words 0 and 1 only. -/
theorem parameter_congr {t u : Trb} (h0 : t.data 0 = u.data 0) (h1 : t.data 1 = u.data 1) :
    t.parameter = u.parameter := by
  rw [parameter, parameter, h0, h1]

/-- The 64-bit parameter is kept in the words 0 and 1 of the TRB, and reads back whole. -/
@[simp] theorem parameter_setParameter (t : Trb) (v : BitVec 64) :
    (t.setParameter v).parameter = v := by
  have h0 : (t.setParameter v).data 0 = v.extractLsb' 0 32 := by
    rw [setParameter, setWord_of_ne _ _ (by decide), setWord_same]
  have h1 : (t.setParameter v).data 1 = v.extractLsb' 32 32 := by
    rw [setParameter, setWord_same]
  rw [parameter, h0, h1]
  apply BitVec.eq_of_getLsbD_eq
  intro i hi
  rw [BitVec.getLsbD_append, BitVec.getLsbD_extractLsb', BitVec.getLsbD_extractLsb']
  by_cases h : i < 32
  · simp [h]
  · have hlt : i - 32 < 32 := by omega
    have hadd : 32 + (i - 32) = i := by omega
    simp [h, hlt, hadd]

/-- Words 2 and 3 survive an assignment to the parameter. -/
theorem data_setParameter_of_ne (t : Trb) (v : BitVec 64) {j : Fin 4} (h0 : j ≠ 0) (h1 : j ≠ 1) :
    (t.setParameter v).data j = t.data j := by
  rw [setParameter, setWord_of_ne _ _ h1, setWord_of_ne _ _ h0]

/-- The parameter leaves the words 2 and 3 alone, where length, type and flags are. -/
theorem bits_setParameter_of_ne (t : Trb) (v : BitVec 64) {j : Fin 4} (lo len : Nat)
    (h0 : j ≠ 0) (h1 : j ≠ 1) : (t.setParameter v).bits j lo len = t.bits j lo len := by
  rw [bits, data_setParameter_of_ne t v h0 h1, bits]

/-- A pointer with its low four bits cut off goes to the first two words only: fields of the
others are as they were. -/
theorem bits_setPointer60_of_ne (t : Trb) (p : Addr) {j : Fin 4} (lo len : Nat)
    (h0 : j ≠ 0) (h1 : j ≠ 1) : (t.setPointer60 p).bits j lo len = t.bits j lo len :=
  bits_setParameter_of_ne t _ lo len h0 h1

/-- A 16-byte aligned address survives the trip through a field of 60 bits, as its low four bits
are zero. -/
theorem shl_shr_four {p : Addr} (h : 16 ∣ p.toNat) :
    ((p >>> 4).setWidth 60).setWidth 64 <<< 4 = p := by
  apply BitVec.eq_of_getLsbD_eq
  intro i hi
  obtain ⟨c, hc⟩ := h
  have hlow : i < 4 → p.getLsbD i = false := by
    intro hi4
    rw [BitVec.getLsbD, hc, show (16 : Nat) = 2 ^ 4 by rfl, Nat.testBit_two_pow_mul]
    simp [Nat.not_le.mpr hi4]
  by_cases h4 : i < 4
  · simp [h4, hlow h4]
  · have hadd : 4 + (i - 4) = i := by omega
    have hlt : i - 4 < 60 := by omega
    simp [hi, h4, hadd, hlt]

/-- **Pointer round trip** for the layouts with a 60-bit pointer field. -/
theorem pointer60_setPointer60 (t : Trb) {p : Addr} (h : 16 ∣ p.toNat) :
    (t.setPointer60 p).pointer60 = p := by
  rw [pointer60, setPointer60, parameter_setParameter, field_setField_same _ _ _ (by decide),
    shl_shr_four h]

/-! ## The cycle bit -/

/-- `CopyToLast` replaces bit 0 of word 3 by the cycle bit of the ring, and no other bit of the
word. -/
theorem stampWord_getLsbD (w : BitVec 32) (cycle : Bool) (i : Nat) :
    (stampWord w cycle).getLsbD i = if i = 0 then cycle else w.getLsbD i := by
  have hmask : ∀ j, (0xfffffffe : BitVec 32).getLsbD j = (decide (j < 32) && decide (j ≠ 0)) := by
    intro j
    by_cases hj : j < 32
    · interval_cases j <;> rfl
    · rw [BitVec.getLsbD_of_ge _ _ (by omega)]
      simp [hj]
  rw [stampWord, BitVec.getLsbD_or, BitVec.getLsbD_and, hmask, BitVec.getLsbD_setWidth]
  by_cases hi : i = 0
  · subst hi
    simp
  · have hout : (BitVec.ofBool cycle).getLsbD i = false :=
      BitVec.getLsbD_of_ge _ _ (by omega)
    by_cases h32 : i < 32
    · simp [hi, hout, h32]
    · have hw : w.getLsbD i = false := BitVec.getLsbD_of_ge w i (by omega)
      simp [hi, hout, hw]

/-- A TRB on a ring has the cycle bit of the ring. -/
@[simp] theorem cycleBit_stamp (t : Trb) (cycle : Bool) : (t.stamp cycle).cycleBit = cycle := by
  rw [cycleBit, stamp, setWord_same, stampWord_getLsbD, if_pos rfl]

/-- Every field of a TRB that is not bit 0 of word 3 survives the stamp, so what was written is
what is read. -/
theorem bits_stamp (t : Trb) (cycle : Bool) (i : Fin 4) {lo : Nat} (len : Nat)
    (h : i ≠ 3 ∨ 0 < lo) : (t.stamp cycle).bits i lo len = t.bits i lo len := by
  by_cases hi : i = 3
  · subst hi
    have hlo : 0 < lo := h.resolve_left (fun hne => hne rfl)
    apply field_congr
    intro j hj _
    rw [stamp, setWord_same, stampWord_getLsbD, if_neg (by omega)]
  · rw [stamp, bits_setWord_of_ne _ _ _ _ hi]

/-- The type does not depend on the cycle bit.  So what a reader of the ring takes a TRB for is
what was pushed. -/
@[simp] theorem trbType_stamp (t : Trb) (cycle : Bool) :
    (t.stamp cycle).trbType = t.trbType :=
  bits_stamp t cycle 3 6 (Or.inr (by decide))

/-- The cycle bit is in the last word of a TRB, so stamping it leaves the parameter alone. -/
@[simp] theorem parameter_stamp (t : Trb) (cycle : Bool) :
    (t.stamp cycle).parameter = t.parameter :=
  parameter_congr (setWord_of_ne _ _ (by decide)) (setWord_of_ne _ _ (by decide))

/-- The cycle bit is in the last word of a TRB, so stamping it leaves the pointer that an event
carries alone. -/
@[simp] theorem pointer60_stamp (t : Trb) (cycle : Bool) :
    (t.stamp cycle).pointer60 = t.pointer60 := by
  rw [pointer60, parameter_stamp, pointer60]

/-- Stamping twice keeps the last cycle bit, so a TRB that is pushed again has the bit of its
new lap. -/
@[simp] theorem stamp_stamp (t : Trb) (b c : Bool) : (t.stamp b).stamp c = t.stamp c := by
  ext i : 2
  by_cases hi : i = 3
  · subst hi
    simp only [stamp, setWord_same]
    apply BitVec.eq_of_getLsbD_eq
    intro j _
    rw [stampWord_getLsbD, stampWord_getLsbD, stampWord_getLsbD]
    split <;> rfl
  · simp only [stamp, setWord_of_ne _ _ hi]

end Trb

/-! ## The kinds of TRB the driver builds -/

/-- `NormalTRB`, pointing at `buf` with `len` bytes, interrupting on completion
and on a short packet, as `Device::InterruptIn` fills it in. -/
def normalTRB (buf : Addr) (len : BitVec 17) : Trb :=
  ((((Trb.zero.setBits 3 10 (1 : BitVec 6)).setParameter buf).setBits 2 0 len).setBits 3 2
    (1 : BitVec 1)).setBits 3 5 (1 : BitVec 1)

/-- A default `SetupStageTRB{}`. -/
def setupStageTRB : Trb :=
  ((Trb.zero.setBits 3 10 (2 : BitVec 6)).setBits 3 6 (1 : BitVec 1)).setBits 2 0 (8 : BitVec 17)

/-- A default `DataStageTRB{}`. -/
def dataStageTRB : Trb := Trb.zero.setBits 3 10 (3 : BitVec 6)

/-- A default `StatusStageTRB{}`. -/
def statusStageTRB : Trb := Trb.zero.setBits 3 10 (4 : BitVec 6)

/-- `LinkTRB link{p}`. -/
def linkTRB (ringSegmentPointer : Addr) : Trb :=
  (Trb.zero.setBits 3 10 (6 : BitVec 6)).setPointer60 ringSegmentPointer

/-- `EnableSlotCommandTRB{}`. -/
def enableSlotCommandTRB : Trb := Trb.zero.setBits 3 10 (9 : BitVec 6)

/-- `AddressDeviceCommandTRB{input_context, slot_id}`. -/
def addressDeviceCommandTRB (inputContext : Addr) (slotId : BitVec 8) : Trb :=
  ((Trb.zero.setBits 3 10 (11 : BitVec 6)).setBits 3 24 slotId).setPointer60 inputContext

/-- `ConfigureEndpointCommandTRB{input_context, slot_id}`. -/
def configureEndpointCommandTRB (inputContext : Addr) (slotId : BitVec 8) : Trb :=
  ((Trb.zero.setBits 3 10 (12 : BitVec 6)).setBits 3 24 slotId).setPointer60 inputContext

/-- `TRB::Type` constants the code compares with. -/
def normalType : BitVec 6 := 1
def setupStageType : BitVec 6 := 2
def dataStageType : BitVec 6 := 3
def statusStageType : BitVec 6 := 4
def linkType : BitVec 6 := 6
def enableSlotCommandType : BitVec 6 := 9
def addressDeviceCommandType : BitVec 6 := 11
def configureEndpointCommandType : BitVec 6 := 12
def transferEventType : BitVec 6 := 32
def commandCompletionEventType : BitVec 6 := 33
def portStatusChangeEventType : BitVec 6 := 34

/-- `LinkTRB::bits.toggle_cycle`. -/
def Trb.toggleCycle (t : Trb) : Bool := (t.data 3).getLsbD 1

@[simp] theorem Trb.toggleCycle_stamp (t : Trb) (cycle : Bool) :
    (t.stamp cycle).toggleCycle = t.toggleCycle := by
  rw [toggleCycle, stamp, setWord_same, stampWord_getLsbD, if_neg (by decide), toggleCycle]

end Mikanos.Xhci
