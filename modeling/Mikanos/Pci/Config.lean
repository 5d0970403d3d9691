import Mikanos.Lib.BitField
import Mikanos.Error

/-!
# The PCI configuration space

Every function of every device has 64 registers of 32 bits.  The driver reads one
by writing its address to the port CONFIG_ADDRESS and reading the port CONFIG_DATA
(`readData`).  `MakeAddress` packs the four coordinates into the address, and
`readData_makeAddress` says that they arrive as they are.
-/

namespace Mikanos.Pci

/-- The registers of each bus, device and function. -/
abbrev ConfigSpace := BitVec 8 → BitVec 5 → BitVec 3 → BitVec 6 → BitVec 32

/-- `struct ClassCode`. -/
structure ClassCode where
  base : BitVec 8
  sub : BitVec 8
  interface : BitVec 8
  deriving DecidableEq, Repr

/-- `Match(b, s)`. -/
def ClassCode.matches (c : ClassCode) (b s : BitVec 8) : Bool := b == c.base && s == c.sub

/-- `struct Device`. -/
structure Device where
  bus : BitVec 8
  device : BitVec 8
  function : BitVec 8
  headerType : BitVec 8
  classCode : ClassCode
  deriving DecidableEq, Repr

/-- The lambda `shl` of `MakeAddress`. -/
def shl (x : BitVec 32) (bits : Nat) : BitVec 32 := x <<< bits

/-- `MakeAddress(bus, device, function, reg_addr)`. -/
def makeAddress (bus device function regAddr : BitVec 8) : BitVec 32 :=
  shl 1 31 ||| shl (bus.setWidth 32) 16 ||| shl (device.setWidth 32) 11 |||
    shl (function.setWidth 32) 8 ||| (regAddr.setWidth 32 &&& 0xfc)

/-- `ReadData()` after `WriteAddress(address)`: the register that is addressed, if
the enable bit is set. -/
def readData (space : ConfigSpace) (address : BitVec 32) : BitVec 32 :=
  if address.getLsbD 31 then
    space (address.extractLsb' 16 8) (address.extractLsb' 11 5) (address.extractLsb' 8 3)
      (address.extractLsb' 2 6)
  else BitVec.allOnes 32

/-- `ReadVendorId(bus, device, function)`. -/
def readVendorId (space : ConfigSpace) (bus device function : BitVec 8) : BitVec 16 :=
  (readData space (makeAddress bus device function 0x00) &&& 0xffff).setWidth 16

/-- `ReadHeaderType(bus, device, function)`. -/
def readHeaderType (space : ConfigSpace) (bus device function : BitVec 8) : BitVec 8 :=
  ((readData space (makeAddress bus device function 0x0c) >>> 16) &&& 0xff).setWidth 8

/-- `ReadClassCode(bus, device, function)`. -/
def readClassCode (space : ConfigSpace) (bus device function : BitVec 8) : ClassCode :=
  let reg := readData space (makeAddress bus device function 0x08)
  { base := ((reg >>> 24) &&& 0xff).setWidth 8
    sub := ((reg >>> 16) &&& 0xff).setWidth 8
    interface := ((reg >>> 8) &&& 0xff).setWidth 8 }

/-- `ReadBusNumbers(bus, device, function)`. -/
def readBusNumbers (space : ConfigSpace) (bus device function : BitVec 8) : BitVec 32 :=
  readData space (makeAddress bus device function 0x18)

/-- `IsSingleFunctionDevice(header_type)`. -/
def isSingleFunctionDevice (headerType : BitVec 8) : Bool := headerType &&& 0x80 == 0

/-! ## What is read -/

/-- Register `i` of a function. -/
def register (space : ConfigSpace) (bus device function : BitVec 8) (i : BitVec 6) : BitVec 32 :=
  space bus (device.setWidth 5) (function.setWidth 3) i

/-- A byte that stands below `2 ^ n` has no higher bits. -/
theorem getLsbD_of_toNat_lt {b : BitVec 8} {n i : Nat} (h : b.toNat < 2 ^ n) (hi : n ≤ i) :
    b.getLsbD i = false := by
  rw [BitVec.getLsbD, Nat.testBit_lt_two_pow (h.trans_le (Nat.pow_le_pow_right (by decide) hi))]

/-- The bits of an address, one for one: the enable bit 31, the bus from 16 on, the device from
11, the function from 8 and the register from 2, with the lowest two zero. -/
theorem getLsbD_makeAddress (bus device function regAddr : BitVec 8) {i : Nat} (hi : i < 32) :
    (makeAddress bus device function regAddr).getLsbD i =
      (decide (i = 31) || (decide (16 ≤ i) && bus.getLsbD (i - 16)) ||
        (decide (11 ≤ i) && device.getLsbD (i - 11)) ||
        (decide (8 ≤ i) && function.getLsbD (i - 8)) ||
        (decide (2 ≤ i) && regAddr.getLsbD i)) := by
  have hone : (1 : BitVec 32).getLsbD (i - 31) = decide (i - 31 = 0) :=
    BitVec.getLsbD_one.trans (by simp)
  have hmask : (0xfc : BitVec 32).getLsbD i = (decide (2 ≤ i) && decide (i < 8)) := by
    interval_cases i <;> rfl
  have hhigh : ∀ b : BitVec 8, 8 ≤ i → b.getLsbD i = false := fun b h => BitVec.getLsbD_of_ge b i h
  simp only [makeAddress, shl, BitVec.getLsbD_or, BitVec.getLsbD_shiftLeft, BitVec.getLsbD_and,
    BitVec.getLsbD_setWidth, hmask]
  grind

/-- **Addresses keep the coordinates apart**: reading at an address that `MakeAddress` makes
gives the register of that bus, device and function, the register number being the offset
without its low two bits. -/
theorem readData_makeAddress (space : ConfigSpace) (bus : BitVec 8) {device function : BitVec 8}
    (hdevice : device.toNat < 32) (hfunction : function.toNat < 8) (regAddr : BitVec 8) :
    readData space (makeAddress bus device function regAddr) =
      register space bus device function (regAddr.extractLsb' 2 6) := by
  have hdev : ∀ i, 5 ≤ i → device.getLsbD i = false :=
    fun i hi => getLsbD_of_toNat_lt hdevice hi
  have hfun : ∀ i, 3 ≤ i → function.getLsbD i = false :=
    fun i hi => getLsbD_of_toNat_lt hfunction hi
  have hhigh : ∀ (b : BitVec 8) i, 8 ≤ i → b.getLsbD i = false :=
    fun b i h => BitVec.getLsbD_of_ge b i h
  have henable : (makeAddress bus device function regAddr).getLsbD 31 = true := by
    rw [getLsbD_makeAddress _ _ _ _ (by decide)]
    rfl
  have hbus : (makeAddress bus device function regAddr).extractLsb' 16 8 = bus := by
    apply BitVec.eq_of_getLsbD_eq
    intro i hi
    rw [BitVec.getLsbD_extractLsb', getLsbD_makeAddress _ _ _ _ (by omega)]
    grind
  have hdevices : (makeAddress bus device function regAddr).extractLsb' 11 5 =
      device.setWidth 5 := by
    apply BitVec.eq_of_getLsbD_eq
    intro i hi
    rw [BitVec.getLsbD_extractLsb', getLsbD_makeAddress _ _ _ _ (by omega),
      BitVec.getLsbD_setWidth]
    grind
  have hfunctions : (makeAddress bus device function regAddr).extractLsb' 8 3 =
      function.setWidth 3 := by
    apply BitVec.eq_of_getLsbD_eq
    intro i hi
    rw [BitVec.getLsbD_extractLsb', getLsbD_makeAddress _ _ _ _ (by omega),
      BitVec.getLsbD_setWidth]
    grind
  have hregister : (makeAddress bus device function regAddr).extractLsb' 2 6 =
      regAddr.extractLsb' 2 6 := by
    apply BitVec.eq_of_getLsbD_eq
    intro i hi
    rw [BitVec.getLsbD_extractLsb', getLsbD_makeAddress _ _ _ _ (by omega),
      BitVec.getLsbD_extractLsb']
    grind
  rw [readData, if_pos henable, hbus, hdevices, hfunctions, hregister, register]

/-- The vendor id is the low half of register 0, for a device and a function that exist. -/
theorem readVendorId_eq (space : ConfigSpace) (bus : BitVec 8) {device function : BitVec 8}
    (hdevice : device.toNat < 32) (hfunction : function.toNat < 8) :
    readVendorId space bus device function =
      (register space bus device function 0).extractLsb' 0 16 := by
  rw [readVendorId, readData_makeAddress space bus hdevice hfunction]
  change (register space bus device function 0 &&& 0xffff).setWidth 16 = _
  generalize register space bus device function 0 = reg
  apply BitVec.eq_of_getLsbD_eq
  intro i hi
  have hmask : (0xffff : BitVec 32).getLsbD i = true := by interval_cases i <;> rfl
  rw [BitVec.getLsbD_setWidth, BitVec.getLsbD_and, hmask, BitVec.getLsbD_extractLsb',
    Bool.and_true, Nat.zero_add]

/-- One byte of a register. -/
theorem byte_of_register (reg : BitVec 32) (n : Nat) :
    ((reg >>> n) &&& 0xff).setWidth 8 = reg.extractLsb' n 8 := by
  apply BitVec.eq_of_getLsbD_eq
  intro i hi
  have hmask : (0xff : BitVec 32).getLsbD i = true := by interval_cases i <;> rfl
  rw [BitVec.getLsbD_setWidth, BitVec.getLsbD_and, BitVec.getLsbD_ushiftRight, hmask,
    BitVec.getLsbD_extractLsb', Bool.and_true]

/-- The header type is byte 2 of register 3. -/
theorem readHeaderType_eq (space : ConfigSpace) (bus : BitVec 8) {device function : BitVec 8}
    (hdevice : device.toNat < 32) (hfunction : function.toNat < 8) :
    readHeaderType space bus device function =
      (register space bus device function 3).extractLsb' 16 8 := by
  rw [readHeaderType, readData_makeAddress space bus hdevice hfunction,
    byte_of_register]
  rfl

/-- The class code is the upper three bytes of register 2. -/
theorem readClassCode_eq (space : ConfigSpace) (bus : BitVec 8) {device function : BitVec 8}
    (hdevice : device.toNat < 32) (hfunction : function.toNat < 8) :
    readClassCode space bus device function =
      { base := (register space bus device function 2).extractLsb' 24 8
        sub := (register space bus device function 2).extractLsb' 16 8
        interface := (register space bus device function 2).extractLsb' 8 8 } := by
  rw [readClassCode, readData_makeAddress space bus hdevice hfunction, byte_of_register,
    byte_of_register, byte_of_register]
  rfl

/-- The secondary bus number is byte 1 of register 6. -/
theorem readBusNumbers_eq (space : ConfigSpace) (bus : BitVec 8) {device function : BitVec 8}
    (hdevice : device.toNat < 32) (hfunction : function.toNat < 8) :
    readBusNumbers space bus device function = register space bus device function 6 :=
  readData_makeAddress space bus hdevice hfunction 0x18

end Mikanos.Pci
