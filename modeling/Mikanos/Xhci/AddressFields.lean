import Mikanos.Xhci.Initialize

/-!
# Addresses in bit-fields

Nine structures carry an address in a bit-field that leaves out its low bits.  The setter
shifts the address down into the field and the getter shifts it up again, which is the
identity on aligned addresses as long as the field holds all the other bits
(`shl_shr_of_dvd`).

The field of DCBAAP has 26 bits.  It is narrower than an `int`, so the getter shifts an
`int`, and the conversion of the result to 64 bits extends its sign
(`dcbaapPointer_setPointer`).
-/

namespace Mikanos.Xhci

open BitField

/-! ## Setters and getters -/

/-- The address in the bits from `lo` on of a 64-bit register. -/
def pointerField (w : BitVec 64) (lo len : Nat) : Addr := (field w lo len).setWidth 64 <<< lo

/-- Assignment to it. -/
def setPointerField (w : BitVec 64) (lo len : Nat) (value : Addr) : BitVec 64 :=
  setField w lo ((value >>> lo).setWidth len : BitVec len)

/-- `CRCR_Bitmap::Pointer()`. -/
def crcrPointer (crcr : BitVec 64) : Addr := pointerField crcr 6 58

/-- `CRCR_Bitmap::SetPointer(value)`. -/
def crcrSetPointer (crcr : BitVec 64) (value : Addr) : BitVec 64 := setPointerField crcr 6 58 value

/-- `DCBAAP_Bitmap::Pointer()`: the field is promoted to `int` and shifted as such. -/
def dcbaapPointer (dcbaap : BitVec 64) : Addr :=
  ((field dcbaap 6 26).setWidth 32 <<< 6 : BitVec 32).signExtend 64

/-- `DCBAAP_Bitmap::SetPointer(value)`. -/
def dcbaapSetPointer (dcbaap : BitVec 64) (value : Addr) : BitVec 64 :=
  setPointerField dcbaap 6 26 value

/-- `ERSTBA_Bitmap::Pointer()`. -/
def erstbaPointer (erstba : BitVec 64) : Addr := pointerField erstba 6 58

/-- `ERSTBA_Bitmap::SetPointer(value)`. -/
def erstbaSetPointer (erstba : BitVec 64) (value : Addr) : BitVec 64 :=
  setPointerField erstba 6 58 value

/-- `LinkTRB::Pointer()`. -/
def linkPointer (t : Trb) : Addr := t.pointer60

/-- `LinkTRB::SetPointer(p)`. -/
def linkSetPointer (t : Trb) (p : Addr) : Trb := t.setPointer60 p

/-- `AddressDeviceCommandTRB::Pointer()`. -/
def addressDevicePointer (t : Trb) : Addr := t.pointer60

/-- `AddressDeviceCommandTRB::SetPointer(p)`. -/
def addressDeviceSetPointer (t : Trb) (p : Addr) : Trb := t.setPointer60 p

/-- `ConfigureEndpointCommandTRB::Pointer()`. -/
def configureEndpointPointer (t : Trb) : Addr := t.pointer60

/-- `ConfigureEndpointCommandTRB::SetPointer(p)`. -/
def configureEndpointSetPointer (t : Trb) (p : Addr) : Trb := t.setPointer60 p

/-- `CommandCompletionEventTRB::Pointer()`. -/
def commandCompletionPointer (t : Trb) : Addr := t.pointer60

/-- `CommandCompletionEventTRB::SetPointer(p)`. -/
def commandCompletionSetPointer (t : Trb) (p : Addr) : Trb := t.setPointer60 p

/-- `EndpointContext::TransferRingBuffer()`. -/
def EndpointContext.transferRingBuffer (c : EndpointContext) : Addr :=
  (c.bits 3 0 32 ++ c.bits 2 4 28).setWidth 64 <<< 4

/-! ## The structures -/

/-- The structures with an address field. -/
inductive AddressHolder where
  | crcr
  | dcbaap
  | erstba
  | erdp
  | linkTRB
  | endpointContext
  | addressDeviceCommandTRB
  | configureEndpointCommandTRB
  | commandCompletionEventTRB
  deriving DecidableEq

namespace AddressHolder

/-- What a structure holds. -/
def Contents : AddressHolder → Type
  | crcr | dcbaap | erstba | erdp => BitVec 64
  | linkTRB | addressDeviceCommandTRB | configureEndpointCommandTRB
  | commandCompletionEventTRB => Trb
  | endpointContext => EndpointContext

/-- The alignment that the structure requires of the address. -/
def alignment : AddressHolder → Nat
  | crcr | dcbaap | erstba => 64
  | _ => 16

/-- The getter. -/
def pointer : (h : AddressHolder) → h.Contents → Addr
  | crcr => crcrPointer
  | dcbaap => dcbaapPointer
  | erstba => erstbaPointer
  | erdp => erdpPointer
  | linkTRB => linkPointer
  | endpointContext => EndpointContext.transferRingBuffer
  | addressDeviceCommandTRB => addressDevicePointer
  | configureEndpointCommandTRB => configureEndpointPointer
  | commandCompletionEventTRB => commandCompletionPointer

/-- The setter. -/
def setPointer : (h : AddressHolder) → h.Contents → Addr → h.Contents
  | crcr => crcrSetPointer
  | dcbaap => dcbaapSetPointer
  | erstba => erstbaSetPointer
  | erdp => erdpSetPointer
  | linkTRB => linkSetPointer
  | endpointContext => EndpointContext.setTransferRingBuffer
  | addressDeviceCommandTRB => addressDeviceSetPointer
  | configureEndpointCommandTRB => configureEndpointSetPointer
  | commandCompletionEventTRB => commandCompletionSetPointer

end AddressHolder

/-- Bit `i` of the four words of a TRB. -/
def Trb.bit (t : Trb) (i : Nat) : Bool :=
  if h : i / 32 < 4 then (t.data ⟨i / 32, h⟩).getLsbD (i % 32) else false

/-- Bit `i` of the eight double words of a context. -/
def Dwords.bit (c : Dwords) (i : Nat) : Bool :=
  if h : i / 32 < 8 then (c.dwords ⟨i / 32, h⟩).getLsbD (i % 32) else false

namespace AddressHolder

/-- Bit `i` of the structure. -/
def bit : (h : AddressHolder) → h.Contents → Nat → Bool
  | crcr | dcbaap | erstba | erdp => fun w => w.getLsbD
  | linkTRB | addressDeviceCommandTRB | configureEndpointCommandTRB
  | commandCompletionEventTRB => Trb.bit
  | endpointContext => Dwords.bit

/-- The first bit of the address field and the first one behind it. -/
def fieldBits : AddressHolder → Nat × Nat
  | crcr | erstba => (6, 64)
  | dcbaap => (6, 32)
  | endpointContext => (68, 128)
  | _ => (4, 64)

/-- An address that is set reads back, and no bit outside its field has changed. -/
structure RoundTrips (h : AddressHolder) (c : h.Contents) (a : Addr) : Prop where
  reads : h.pointer (h.setPointer c a) = a
  frame : ∀ i, i < h.fieldBits.1 ∨ h.fieldBits.2 ≤ i → h.bit (h.setPointer c a) i = h.bit c i

end AddressHolder

/-! ## Shifting down and up -/

/-- **An aligned address survives its field**, if the field reaches up to bit 63: the bits that
the field leaves out are the ones that alignment keeps zero. -/
theorem shl_shr_of_dvd {lo len : Nat} (hwidth : lo + len = 64) {a : Addr}
    (h : 2 ^ lo ∣ a.toNat) : ((a >>> lo).setWidth len : BitVec len).setWidth 64 <<< lo = a := by
  apply BitVec.eq_of_getLsbD_eq
  intro i hi
  obtain ⟨c, hc⟩ := h
  have hlow : i < lo → a.getLsbD i = false := by
    intro hlt
    rw [BitVec.getLsbD, hc, Nat.testBit_two_pow_mul]
    simp [Nat.not_le.mpr hlt]
  by_cases hlt : i < lo
  · simp [hlt, hlow hlt]
  · have hadd : lo + (i - lo) = i := by omega
    have hin : i - lo < len := by omega
    have hin' : i - lo < 64 := by omega
    simp [hi, hlt, hadd, hin, hin']

/-- A 64-bit register, whose field reaches up to bit 63. -/
theorem pointerField_setPointerField (w : BitVec 64) {lo len : Nat} (hwidth : lo + len = 64)
    {a : Addr} (h : 2 ^ lo ∣ a.toNat) :
    pointerField (setPointerField w lo len a) lo len = a := by
  rw [pointerField, setPointerField, field_setField_same _ _ _ (Nat.le_of_eq hwidth),
    shl_shr_of_dvd hwidth h]

/-- The bits of a register outside the field. -/
theorem getLsbD_setPointerField (w : BitVec 64) {lo len i : Nat} (a : Addr)
    (hi : i < lo ∨ lo + len ≤ i) : (setPointerField w lo len a).getLsbD i = w.getLsbD i := by
  rw [setPointerField, getLsbD_setField, if_neg]
  omega

/-- **What DCBAAP reads back** is the low half of the address with its sign extended, since the
accessor computes with an `int`; so only some addresses come back. -/
theorem dcbaapPointer_setPointer (w : BitVec 64) {a : Addr} (h : 64 ∣ a.toNat) :
    dcbaapPointer (dcbaapSetPointer w a) = (a.setWidth 32).signExtend 64 := by
  have hlow : ((a >>> 6).setWidth 26 : BitVec 26).setWidth 32 <<< 6 = a.setWidth 32 := by
    apply BitVec.eq_of_toNat_eq
    simp only [BitVec.toNat_shiftLeft, BitVec.toNat_setWidth, BitVec.toNat_ushiftRight,
      Nat.shiftRight_eq_div_pow, Nat.shiftLeft_eq]
    omega
  rw [dcbaapPointer, dcbaapSetPointer, setPointerField, field_setField_same _ _ _ (by decide),
    hlow]

/-- The low half of a word, its sign extended, is the word only near the two ends of the
address space. -/
theorem signExtend_setWidth_iff (a : Addr) :
    (a.setWidth 32).signExtend 64 = a ↔ a.toNat < 2 ^ 31 ∨ 2 ^ 64 - 2 ^ 31 ≤ a.toNat := by
  have hlt := a.isLt
  rw [← BitVec.toInt_inj, BitVec.toInt_signExtend_of_le (by decide),
    BitVec.toInt_eq_toNat_cond, BitVec.toInt_eq_toNat_cond, BitVec.toNat_setWidth]
  split
  · split
    · omega
    · omega
  · split
    · omega
    · omega

/-! ## Structures of several words -/

/-- Bit `k` of word `w`. -/
theorem Trb.bit_word (t : Trb) (w : Fin 4) {k : Nat} (hk : k < 32) :
    t.bit (32 * w.val + k) = (t.data w).getLsbD k := by
  have hw := w.isLt
  have hdiv : (32 * w.val + k) / 32 = w.val := by omega
  have hmod : (32 * w.val + k) % 32 = k := by omega
  unfold Trb.bit
  simp only [hdiv, hmod, hw, dif_pos]

/-- A bit of the parameter is the same bit of the TRB, in its first word or in its second. -/
theorem getLsbD_parameter (t : Trb) {i : Nat} (hi : i < 64) :
    t.parameter.getLsbD i = t.bit i := by
  rw [Trb.parameter, BitVec.getLsbD_append]
  by_cases hlow : i < 32
  · have hbit := t.bit_word 0 hlow
    rw [if_pos hlow, ← hbit]
    exact congrArg t.bit (Nat.zero_add i)
  · have hbit := t.bit_word 1 (k := i - 32) (by omega)
    rw [if_neg hlow, ← hbit]
    refine congrArg t.bit ?_
    change 32 * 1 + (i - 32) = i
    omega

/-- The bits of a TRB outside the pointer, the low four and those from 64 on, are not touched by
setting it. -/
theorem bit_setPointer60 (t : Trb) (a : Addr) {i : Nat} (hi : i < 4 ∨ 64 ≤ i) :
    (t.setPointer60 a).bit i = t.bit i := by
  by_cases hparameter : i < 64
  · rw [← getLsbD_parameter _ hparameter, ← getLsbD_parameter _ hparameter, Trb.setPointer60,
      Trb.parameter_setParameter, getLsbD_setField, if_neg]
    omega
  · unfold Trb.bit
    split
    · rename_i hword
      rw [Trb.setPointer60, Trb.data_setParameter_of_ne]
      · exact Fin.ne_of_val_ne (by simp only [Fin.val_zero]; omega)
      · exact Fin.ne_of_val_ne (by simp only [Fin.val_one]; omega)
    · rfl

/-- The address of a ring in an endpoint context reads back, as rings are aligned to 16 bytes
and more. -/
theorem transferRingBuffer_setTransferRingBuffer (c : EndpointContext) {a : Addr}
    (h : 16 ∣ a.toNat) : (c.setTransferRingBuffer a).transferRingBuffer = a := by
  have hhigh : (c.setTransferRingBuffer a).bits 3 0 32 = (a >>> 4).extractLsb' 28 32 :=
    Dwords.bits_setBits_same _ _ _ _ (by decide)
  have hlow : (c.setTransferRingBuffer a).bits 2 4 28 = (a >>> 4).extractLsb' 0 28 := by
    rw [EndpointContext.setTransferRingBuffer,
      Dwords.bits_setBits_of_disjoint _ _ _ _ _ _ (Or.inl (by decide)),
      Dwords.bits_setBits_same _ _ _ _ (by decide)]
  have hjoin : (a >>> 4).extractLsb' 28 32 ++ (a >>> 4).extractLsb' 0 28
      = ((a >>> 4).setWidth 60 : BitVec 60) := by
    apply BitVec.eq_of_getLsbD_eq
    intro i hi
    rw [BitVec.getLsbD_append, BitVec.getLsbD_extractLsb', BitVec.getLsbD_extractLsb',
      BitVec.getLsbD_setWidth]
    by_cases hlow : i < 28
    · simp [hlow, hi]
    · have hadd : 28 + (i - 28) = i := by omega
      have hin : i - 28 < 32 := by omega
      simp [hlow, hadd, hin, hi]
  rw [EndpointContext.transferRingBuffer, hhigh, hlow, hjoin]
  exact shl_shr_of_dvd (by decide) h

/-- The bits of an endpoint context outside the address are not touched by setting it, the cycle
state in front of it included. -/
theorem bit_setTransferRingBuffer (c : EndpointContext) (a : Addr) {i : Nat}
    (hi : i < 68 ∨ 128 ≤ i) : (c.setTransferRingBuffer a).bit i = c.bit i := by
  unfold Dwords.bit
  split
  · rename_i hword
    rw [EndpointContext.setTransferRingBuffer, Dwords.setBits, Dwords.setBits]
    have hthree : (⟨i / 32, hword⟩ : Fin 8) ≠ 3 := Fin.ne_of_val_ne (by
      change i / 32 ≠ 3
      omega)
    simp only [Function.update_of_ne hthree]
    by_cases htwo : (⟨i / 32, hword⟩ : Fin 8) = 2
    · have hval : i / 32 = 2 := congrArg Fin.val htwo
      rw [htwo, Function.update_self, getLsbD_setField, if_neg]
      omega
    · rw [Function.update_of_ne htwo]
  · rfl

/-! ## All structures -/

/-- The address fields of all structures but DCBAAP reach up to bit 63, so every aligned address
reads back and nothing else changes. -/
theorem roundTrips_of_ne {h : AddressHolder} (hne : h ≠ .dcbaap) (c : h.Contents) {a : Addr}
    (haligned : h.alignment ∣ a.toNat) : h.RoundTrips c a := by
  cases h with
  | dcbaap => exact absurd rfl hne
  | crcr | erstba | erdp =>
      exact ⟨pointerField_setPointerField c (by decide) haligned,
        fun i hi => getLsbD_setPointerField c a hi⟩
  | linkTRB | addressDeviceCommandTRB | configureEndpointCommandTRB
  | commandCompletionEventTRB =>
      exact ⟨Trb.pointer60_setPointer60 c haligned, fun i hi => bit_setPointer60 c a hi⟩
  | endpointContext =>
      exact ⟨transferRingBuffer_setTransferRingBuffer c haligned,
        fun i hi => bit_setTransferRingBuffer c a hi⟩

/-- **Addresses round-trip** in all structures and for all aligned addresses but in DCBAAP,
which is read back as a signed 32-bit number: there exactly the addresses that are such numbers
come back. No bit outside the field changes. -/
theorem address_roundTrips_iff (h : AddressHolder) (c : h.Contents) (a : Addr)
    (haligned : h.alignment ∣ a.toNat) :
    h.RoundTrips c a ↔
      (h = .dcbaap → a.toNat < 2 ^ 31 ∨ 2 ^ 64 - 2 ^ 31 ≤ a.toNat) := by
  by_cases hdcbaap : h = .dcbaap
  · subst hdcbaap
    have hread := dcbaapPointer_setPointer c haligned
    constructor
    · exact fun hround _ => (signExtend_setWidth_iff a).mp (hread.symm.trans hround.reads)
    · exact fun hrange => ⟨hread.trans ((signExtend_setWidth_iff a).mpr (hrange rfl)),
        fun i hi => getLsbD_setPointerField c a hi⟩
  · exact ⟨fun _ h => absurd h hdcbaap, fun _ => roundTrips_of_ne hdcbaap c haligned⟩

/-- What `Initialize` writes to DCBAAP. -/
theorem dcbaapOf_eq (value : Addr) : dcbaapOf value = dcbaapSetPointer 0 value := rfl

/-- The command ring is found where `Initialize` put it. -/
theorem crcrPointer_registerCommandRing (crcr : BitVec 64) {buffer : Addr}
    (h : 64 ∣ buffer.toNat) : crcrPointer (registerCommandRing crcr buffer) = buffer :=
  pointerField_setPointerField _ (by decide) h

/-- The segment table is found where the event ring put it. -/
theorem erstbaPointer_writeTablePointer (r : EventRing) {value : Addr} (h : 64 ∣ value.toNat) :
    erstbaPointer (r.writeTablePointer value).interrupter.erstba = value :=
  pointerField_setPointerField _ (by decide) h

/-- The address of a ring at 4 GiB reads back from an endpoint context. -/
theorem address_roundTrips_iff_ring :
    AddressHolder.endpointContext.RoundTrips Dwords.zero 0x100000000 :=
  (address_roundTrips_iff .endpointContext Dwords.zero 0x100000000 (by decide)).mpr
    fun hdcbaap => absurd hdcbaap (by decide)

/-- **A context array at 2 GiB** is read back from DCBAAP as an address with the sign
extended, and one at 4 GiB as null. -/
theorem dcbaap_loses_address :
    AddressHolder.dcbaap.alignment ∣ (0x80000000 : Addr).toNat ∧
      dcbaapPointer (dcbaapSetPointer 0 0x80000000) = 0xffffffff80000000 ∧
      dcbaapPointer (dcbaapSetPointer 0 0x100000000) = 0 ∧
      ¬ AddressHolder.dcbaap.RoundTrips (0 : BitVec 64) 0x80000000 := by
  refine ⟨by decide, by decide, by decide, fun hround => ?_⟩
  have hreads := hround.reads
  exact absurd hreads (by decide)

end Mikanos.Xhci
