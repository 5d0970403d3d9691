import Mikanos.Pci.Ports

/-!
# Finding the host controller

After the scan `KernelMain` looks for an xHC in the table, reads its first base address register
and, for a controller of Intel, may switch the ports over from the EHC.  Only the last step
writes to the configuration space.

`selectXhc` says which controller it is to be: the first one of Intel, or else the last one.
`usePci_outcome` is the whole phase against the ports of a machine.
-/

namespace Mikanos.Pci

open BoundedTable Dialogue Machine

/-- `Match(b, s, i)`. -/
def ClassCode.matchesInterface (c : ClassCode) (b s i : BitVec 8) : Bool :=
  c.matches b s && i == c.interface

/-- `CalcBarAddress(bar_index)`. -/
def calcBarAddress (barIndex : BitVec 32) : BitVec 8 := (0x10 + 4 * barIndex).setWidth 8

namespace Ports

/-- `ReadBar(device, bar_index)`. -/
def readBar (dev : Device) (barIndex : BitVec 32) :
    Dialogue PortIo.Reply (BitVec 64 × Error) := do
  if 6 ≤ barIndex.toNat then return (0, .kIndexOutOfRange)
  else do
    let addr := calcBarAddress barIndex
    let bar ← readConfReg dev addr
    if bar &&& 4 = 0 then return (bar.setWidth 64, .kSuccess)
    else if 5 ≤ barIndex.toNat then return (0, .kIndexOutOfRange)
    else do
      let barUpper ← readConfReg dev (addr + 4)
      return (bar.setWidth 64 ||| (barUpper.setWidth 64 <<< 32), .kSuccess)

/-- The vendor id of Intel. -/
def intel : BitVec 16 := 0x8086

/-- The xHC search of `KernelMain` from some entry of the table on. -/
def findXhc : List Device → Option Device → Dialogue PortIo.Reply (Option Device)
  | [], xhcDev => return xhcDev
  | dev :: rest, xhcDev =>
      if dev.classCode.matchesInterface 0x0c 0x03 0x30 then do
        let vendorId ← readVendorId dev.bus dev.device dev.function
        if intel = vendorId then return some dev else findXhc rest (some dev)
      else findXhc rest xhcDev

/-- The loop of `SwitchEhci2Xhci`: `intel_ehc_exist`. -/
def intelEhcExists : List Device → Dialogue PortIo.Reply Bool
  | [] => return false
  | dev :: rest =>
      if dev.classCode.matchesInterface 0x0c 0x03 0x20 then do
        let vendorId ← readVendorId dev.bus dev.device dev.function
        if intel = vendorId then return true else intelEhcExists rest
      else intelEhcExists rest

/-- `SwitchEhci2Xhci(xhc_dev)`. -/
def switchEhci2Xhci (devices : List Device) (xhcDev : Device) : Dialogue PortIo.Reply Unit := do
  let intelEhcExist ← intelEhcExists devices
  if intelEhcExist = false then return ()
  else do
    let superspeedPorts ← readConfReg xhcDev 0xdc
    writeConfReg xhcDev 0xd8 superspeedPorts
    let ehci2xhciPorts ← readConfReg xhcDev 0xd4
    writeConfReg xhcDev 0xd0 ehci2xhciPorts

/-- The listing loop of `KernelMain`. -/
def listDevices : List Device → Dialogue PortIo.Reply Unit
  | [] => return ()
  | dev :: rest => do
      let _ ← readVendorId dev.bus dev.device dev.function
      let _ ← readClassCode dev.bus dev.device dev.function
      listDevices rest

/-- `KernelMain` from the end of the xHC search to `SwitchEhci2Xhci`: the host controller and
its `xhc_mmio_base`, or nothing where the kernel halts. -/
def useXhc (devices : List Device) :
    Option Device → Dialogue PortIo.Reply (Except Fault (Option (Device × BitVec 64)))
  | none => return .ok none
  | some xhcDev => do
      let (value, _) ← readBar xhcDev 0
      let xhcMmioBase := value &&& ~~~(0xf : BitVec 64)
      let vendorId ← readVendorId xhcDev.bus xhcDev.device xhcDev.function
      if intel = vendorId then do
        switchEhci2Xhci devices xhcDev
        return .ok (some (xhcDev, xhcMmioBase))
      else return .ok (some (xhcDev, xhcMmioBase))

/-- `KernelMain` from `ScanAllBus` to `SwitchEhci2Xhci`. -/
def usePci : Dialogue PortIo.Reply (Except Fault (Option (Device × BitVec 64))) :=
  scanAllBus.bindOk fun result => do
    listDevices result.2.entries
    let xhcDev ← findXhc result.2.entries none
    useXhc result.2.entries xhcDev

/-! ## Which controller is used -/

/-- The device is an xHC. -/
def isXhc (dev : Device) : Bool := dev.classCode.matchesInterface 0x0c 0x03 0x30

/-- The device is from Intel. -/
def isIntel (space : ConfigSpace) (dev : Device) : Bool :=
  intel = Pci.readVendorId space dev.bus dev.device dev.function

/-- The first xHC of Intel, or else the last xHC. -/
def selectXhc (space : ConfigSpace) (devices : List Device) : Option Device :=
  (devices.find? fun dev => isXhc dev && isIntel space dev).or (devices.filter isXhc).getLast?

/-- There is an EHC of Intel. -/
def hasIntelEhc (space : ConfigSpace) (devices : List Device) : Bool :=
  devices.any fun dev => dev.classCode.matchesInterface 0x0c 0x03 0x20 && isIntel space dev

/-- **The selected controller**: an xHC of the table, an Intel one if there is any; none if
there is no xHC. -/
theorem selectXhc_spec (space : ConfigSpace) (devices : List Device) :
    (∀ dev, selectXhc space devices = some dev → dev ∈ devices ∧ isXhc dev = true ∧
      (isIntel space dev = false → ∀ d ∈ devices, isXhc d = true → isIntel space d = false)) ∧
    (selectXhc space devices = none ↔ ∀ d ∈ devices, isXhc d = false) := by
  unfold selectXhc
  cases hfirst : devices.find? fun dev => isXhc dev && isIntel space dev with
  | some first =>
      have hfound := List.find?_some hfirst
      rw [Bool.and_eq_true] at hfound
      refine ⟨fun dev hdev => ?_, fun h => ?_, fun h => ?_⟩
      · obtain rfl : first = dev := by simpa using hdev
        refine ⟨List.mem_of_find?_eq_some hfirst, hfound.1, fun hother => ?_⟩
        rw [hfound.2] at hother
        cases hother
      · cases h
      · have hnot := h first (List.mem_of_find?_eq_some hfirst)
        rw [hfound.1] at hnot
        cases hnot
  | none =>
      rw [List.find?_eq_none] at hfirst
      have hother : ∀ d ∈ devices, isXhc d = true → isIntel space d = false := by
        intro d hd hxhc
        simpa [hxhc] using hfirst d hd
      rw [Option.none_or]
      refine ⟨fun dev hdev => ?_, ?_⟩
      · have hmem := List.mem_of_getLast? hdev
        rw [List.mem_filter] at hmem
        exact ⟨hmem.1, hmem.2, fun _ => hother⟩
      · rw [List.getLast?_eq_none_iff, List.filter_eq_nil_iff]
        simp only [Bool.not_eq_true]

section Search

variable {latch : Latch} {space : ConfigSpace}

/-- The loop over the devices keeps the last xHC it meets, but for one of Intel, at which it
stops. -/
theorem finds_findXhc (devices : List Device) (xhcDev : Option Device) :
    Finds latch space (findXhc devices xhcDev) ((selectXhc space devices).or xhcDev) := by
  induction devices generalizing xhcDev with
  | nil => exact yields_done _
  | cons dev rest ih =>
      unfold findXhc
      change Finds latch space (if isXhc dev = true then _ else _) _
      by_cases hxhc : isXhc dev = true
      · rw [if_pos hxhc]
        refine (finds_readVendorId latch space dev.bus dev.device dev.function).bind ?_
        by_cases hintel : isIntel space dev = true
        · have hselect : selectXhc space (dev :: rest) = some dev := by
            rw [selectXhc, List.find?_cons_of_pos (by rw [hxhc, hintel]; rfl), Option.some_or]
          rw [if_pos (of_decide_eq_true hintel), hselect]
          exact yields_done _
        · have hselect : (selectXhc space (dev :: rest)).or xhcDev =
              (selectXhc space rest).or (some dev) := by
            rw [selectXhc, selectXhc, List.find?_cons_of_neg (by simp [hintel]),
              List.filter_cons_of_pos hxhc, List.getLast?_cons]
            cases rest.find? fun dev => isXhc dev && isIntel space dev with
            | some first => rfl
            | none => cases (rest.filter isXhc).getLast? <;> rfl
          rw [if_neg fun h => hintel (decide_eq_true h), hselect]
          exact ih _
      · have hselect : selectXhc space (dev :: rest) = selectXhc space rest := by
          rw [selectXhc, selectXhc, List.find?_cons_of_neg (by simp [hxhc]),
            List.filter_cons_of_neg hxhc]
        rw [if_neg hxhc, hselect]
        exact ih _

/-- The search for an EHC of Intel goes through the table of devices, finds what the
configuration space says and changes nothing. -/
theorem finds_intelEhcExists (devices : List Device) :
    Finds latch space (intelEhcExists devices) (hasIntelEhc space devices) := by
  induction devices with
  | nil => exact yields_done _
  | cons dev rest ih =>
      unfold intelEhcExists hasIntelEhc
      rw [List.any_cons]
      cases dev.classCode.matchesInterface 0x0c 0x03 0x20 with
      | false => exact ih
      | true =>
          refine (finds_readVendorId latch space dev.bus dev.device dev.function).bind ?_
          by_cases hintel : intel = Pci.readVendorId space dev.bus dev.device dev.function
          · have hthis : isIntel space dev = true := decide_eq_true hintel
            rw [if_pos hintel, hthis]
            exact yields_done _
          · have hthis : isIntel space dev = false := decide_eq_false hintel
            rw [if_neg hintel, hthis]
            exact ih

/-- Listing the devices reads registers for the log, and has no other effect. -/
theorem finds_listDevices (devices : List Device) :
    Finds latch space (listDevices devices) () := by
  induction devices with
  | nil => exact yields_done _
  | cons dev rest ih =>
      refine (finds_readVendorId latch space dev.bus dev.device dev.function).bind ?_
      exact (finds_readClassCode latch space dev.bus dev.device dev.function).bind ih

end Search

/-! ## Base address registers -/

/-- The value of the register that belongs to a base address register. -/
def bar (space : ConfigSpace) (dev : Device) (barIndex : Nat) : BitVec 32 :=
  register space dev.bus dev.device dev.function (BitVec.ofNat 6 (4 + barIndex))

/-- The register holds the address of a memory region below 4 GiB, and flags. -/
structure Memory32 (space : ConfigSpace) (dev : Device) (barIndex : Nat) (base : BitVec 64) :
    Prop where
  aligned : base &&& 0xf = 0
  below : base.toNat < 2 ^ 32
  lower : ∃ flags : BitVec 32, flags.toNat < 16 ∧ flags &&& 4 = 0 ∧
    bar space dev barIndex = base.setWidth 32 ||| flags

/-- The register and the next one hold the address of a memory region, and flags. -/
structure Memory64 (space : ConfigSpace) (dev : Device) (barIndex : Nat) (base : BitVec 64) :
    Prop where
  aligned : base &&& 0xf = 0
  lower : ∃ flags : BitVec 32, flags.toNat < 16 ∧ flags &&& 4 ≠ 0 ∧
    bar space dev barIndex = base.setWidth 32 ||| flags
  upper : bar space dev (barIndex + 1) = (base >>> 32).setWidth 32

section Bar

variable {latch : Latch} {space : ConfigSpace} {dev : Device}

/-- A register of a device, through the ports. -/
theorem finds_readConfReg (h : InRange dev) (regAddr : BitVec 8) :
    Finds latch space (readConfReg dev regAddr)
      (register space dev.bus dev.device dev.function (regAddr.extractLsb' 2 6)) := by
  rw [← readData_makeAddress space dev.bus h.1 h.2]
  exact finds_readData latch space _

/-- The registers of the BARs follow each other, four bytes each. -/
theorem calcBarAddress_toNat {barIndex : BitVec 32} (h : barIndex.toNat < 6) :
    (calcBarAddress barIndex).toNat = 16 + 4 * barIndex.toNat := by
  have hsixteen : (0x10 : BitVec 32).toNat = 16 := rfl
  have hfour : (4 : BitVec 32).toNat = 4 := rfl
  rw [calcBarAddress, BitVec.toNat_setWidth, BitVec.toNat_add, BitVec.toNat_mul, hsixteen, hfour]
  omega

/-- The register number of an address that is a multiple of four. -/
theorem extractLsb'_two {regAddr : BitVec 8} {i : Nat} (h : regAddr.toNat = 4 * i) :
    regAddr.extractLsb' 2 6 = BitVec.ofNat 6 i := by
  apply BitVec.eq_of_toNat_eq
  rw [BitVec.extractLsb'_toNat, h, BitVec.toNat_ofNat, Nat.shiftRight_eq_div_pow]
  congr 1
  omega

/-- The lower half of a BAR is read at the address that `CalcBarAddress` gives. -/
theorem finds_lower (h : InRange dev) {barIndex : BitVec 32} (hindex : barIndex.toNat < 6) :
    Finds latch space (readConfReg dev (calcBarAddress barIndex))
      (bar space dev barIndex.toNat) := by
  have haddr := calcBarAddress_toNat hindex
  rw [bar,
    ← extractLsb'_two (by omega : (calcBarAddress barIndex).toNat = 4 * (4 + barIndex.toNat))]
  exact finds_readConfReg h _

/-- The upper half of a 64-bit BAR is read four bytes behind the lower one, and is the next BAR
for every index but the last. -/
theorem finds_upper (h : InRange dev) {barIndex : BitVec 32} (hindex : barIndex.toNat < 5) :
    Finds latch space (readConfReg dev (calcBarAddress barIndex + 4))
      (bar space dev (barIndex.toNat + 1)) := by
  have haddr := calcBarAddress_toNat (by omega : barIndex.toNat < 6)
  have hnext : (calcBarAddress barIndex + 4).toNat = 4 * (4 + (barIndex.toNat + 1)) := by
    have hfour : (4 : BitVec 8).toNat = 4 := rfl
    rw [BitVec.toNat_add, haddr, hfour]
    omega
  rw [bar, ← extractLsb'_two hnext]
  exact finds_readConfReg h _

/-- The value and the error of `ReadBar` in all its cases. -/
def barValue (space : ConfigSpace) (dev : Device) (barIndex : Nat) : BitVec 64 × Error :=
  if 6 ≤ barIndex then (0, .kIndexOutOfRange)
  else if bar space dev barIndex &&& 4 = 0 then
    ((bar space dev barIndex).setWidth 64, .kSuccess)
  else if 5 ≤ barIndex then (0, .kIndexOutOfRange)
  else ((bar space dev barIndex).setWidth 64 |||
    ((bar space dev (barIndex + 1)).setWidth 64 <<< 32), .kSuccess)

/-- **`ReadBar`** through the ports gives what the configuration space has, whatever the kind of
the BAR. -/
theorem finds_readBar (h : InRange dev) (barIndex : BitVec 32) :
    Finds latch space (readBar dev barIndex) (barValue space dev barIndex.toNat) := by
  unfold readBar barValue
  by_cases hindex : 6 ≤ barIndex.toNat
  · rw [if_pos hindex, if_pos hindex]
    exact yields_done _
  · rw [if_neg hindex, if_neg hindex]
    refine (finds_lower h (Nat.lt_of_not_le hindex)).bind (yields_ite (yields_done _) ?_)
    by_cases hlast : 5 ≤ barIndex.toNat
    · rw [if_pos hlast, if_pos hlast]
      exact yields_done _
    · rw [if_neg hlast, if_neg hlast]
      exact (finds_upper h (Nat.lt_of_not_le hlast)).bind (yields_done _)

/-- The low half of a base address, with flags below it. -/
theorem getLsbD_withFlags {base : BitVec 64} {flags : BitVec 32} (hflags : flags.toNat < 16)
    {i : Nat} (hlow : 4 ≤ i) (hhigh : i < 32) :
    (base.setWidth 32 ||| flags).getLsbD i = base.getLsbD i := by
  have hclear : flags.getLsbD i = false := by
    rw [BitVec.getLsbD, Nat.testBit_lt_two_pow]
    exact Nat.lt_of_lt_of_le hflags (Nat.pow_le_pow_right (by decide : 0 < 2) hlow)
  rw [BitVec.getLsbD_or, BitVec.getLsbD_setWidth, hclear, Bool.or_false, decide_eq_true hhigh,
    Bool.true_and]

/-- Where a mask of ones has its zeros. -/
theorem getLsbD_not_fifteen {i : Nat} (h : i < 64) :
    (~~~(0xf : BitVec 64)).getLsbD i = decide (4 ≤ i) := by
  interval_cases i <;> rfl

/-- An address without flags in its low four bits is determined by its bits from 4 on, so
clearing the flags gives it back. -/
theorem eq_of_bits {value base : BitVec 64} (haligned : base &&& 0xf = 0)
    (h : ∀ i, 4 ≤ i → i < 64 → value.getLsbD i = base.getLsbD i) :
    value &&& ~~~(0xf : BitVec 64) = base := by
  apply BitVec.eq_of_getLsbD_eq
  intro i hi
  rw [BitVec.getLsbD_and, getLsbD_not_fifteen hi]
  by_cases hlow : 4 ≤ i
  · rw [h i hlow hi, decide_eq_true hlow, Bool.and_true]
  · have hbit := congrArg (fun b => b.getLsbD i) haligned
    have hmask : (0xf : BitVec 64).getLsbD i = true := by
      have hlt : i < 4 := Nat.lt_of_not_le hlow
      interval_cases i <;> rfl
    have hzero : (0 : BitVec 64).getLsbD i = false := BitVec.getLsbD_zero
    simp only [BitVec.getLsbD_and, hmask, hzero, Bool.and_true] at hbit
    rw [decide_eq_false hlow, Bool.and_false, hbit]

/-- The bit that tells the width is one of the flags. -/
theorem width_bit {base : BitVec 64} (haligned : base &&& 0xf = 0) (flags : BitVec 32) :
    (base.setWidth 32 ||| flags) &&& 4 = flags &&& 4 := by
  have hbase : base.setWidth 32 &&& (4 : BitVec 32) = 0#32 := by
    have hbits := congrArg (fun b : BitVec 64 => (b &&& 4).setWidth 32) haligned
    simpa [BitVec.and_assoc] using hbits
  rw [BitVec.and_or_distrib_right, hbase, BitVec.zero_or]

/-- A memory BAR of 32 bits: the base is what is left of the register without the flags, with
zeros above it. -/
theorem Memory32.barValue {barIndex : Nat} {base : BitVec 64}
    (h : Memory32 space dev barIndex base) (hindex : barIndex < 6) :
    ∃ value, Ports.barValue space dev barIndex = (value, .kSuccess) ∧
      value &&& ~~~(0xf : BitVec 64) = base := by
  obtain ⟨flags, hflags, hkind, hlower⟩ := h.lower
  refine ⟨(bar space dev barIndex).setWidth 64, ?_, eq_of_bits h.aligned fun i hlow hi => ?_⟩
  · rw [Ports.barValue, if_neg (Nat.not_le_of_lt hindex),
      if_pos (by rw [hlower, width_bit h.aligned, hkind])]
  · rw [BitVec.getLsbD_setWidth, decide_eq_true hi, Bool.true_and, hlower]
    by_cases hhigh : i < 32
    · exact getLsbD_withFlags hflags hlow hhigh
    · have hclear : base.getLsbD i = false := by
        rw [BitVec.getLsbD, Nat.testBit_lt_two_pow]
        exact Nat.lt_of_lt_of_le h.below (Nat.pow_le_pow_right (by decide : 0 < 2)
          (Nat.le_of_not_lt hhigh))
      rw [hclear]
      exact BitVec.getLsbD_of_ge _ i (Nat.le_of_not_lt hhigh)

/-- A memory BAR of 64 bits: the base is made of two registers, so the index has to leave room
for the second. -/
theorem Memory64.barValue {barIndex : Nat} {base : BitVec 64}
    (h : Memory64 space dev barIndex base) (hindex : barIndex < 5) :
    ∃ value, Ports.barValue space dev barIndex = (value, .kSuccess) ∧
      value &&& ~~~(0xf : BitVec 64) = base := by
  obtain ⟨flags, hflags, hkind, hlower⟩ := h.lower
  refine ⟨(bar space dev barIndex).setWidth 64 |||
    ((bar space dev (barIndex + 1)).setWidth 64 <<< 32), ?_,
    eq_of_bits h.aligned fun i hlow hi => ?_⟩
  · rw [Ports.barValue, if_neg (by omega), if_neg (by rwa [hlower, width_bit h.aligned]),
      if_neg (by omega)]
  · rw [BitVec.getLsbD_or, BitVec.getLsbD_shiftLeft, BitVec.getLsbD_setWidth,
      BitVec.getLsbD_setWidth, hlower, h.upper]
    by_cases hhigh : i < 32
    · rw [getLsbD_withFlags hflags hlow hhigh]
      simp [hi, hhigh]
    · rw [BitVec.getLsbD_of_ge _ i (Nat.le_of_not_lt hhigh), BitVec.getLsbD_setWidth,
        BitVec.getLsbD_ushiftRight]
      have hback : 32 + (i - 32) = i := by omega
      have hup : i - 32 < 32 := by omega
      simp [hi, hhigh, hback, hup]
      omega

/-- **Base addresses read back.**  `ReadBar` finds the address the firmware has put into a
32-bit or a 64-bit base address register, its flags apart, and reports an index that has no
register, or no second one. -/
theorem readBar_roundTrip (h : InRange dev) (barIndex : BitVec 32) :
    (∀ base, (barIndex.toNat < 6 ∧ Memory32 space dev barIndex.toNat base) ∨
        (barIndex.toNat < 5 ∧ Memory64 space dev barIndex.toNat base) →
      ∃ value, Finds latch space (readBar dev barIndex) (value, .kSuccess) ∧
        value &&& ~~~(0xf : BitVec 64) = base) ∧
    (6 ≤ barIndex.toNat ∨ (barIndex.toNat = 5 ∧ bar space dev 5 &&& 4 ≠ 0) →
      Finds latch space (readBar dev barIndex) (0, .kIndexOutOfRange)) := by
  have hfinds := @finds_readBar latch space dev h barIndex
  constructor
  · intro base hbase
    obtain ⟨value, hvalue, hmasked⟩ : ∃ value, Ports.barValue space dev barIndex.toNat =
        (value, .kSuccess) ∧ value &&& ~~~(0xf : BitVec 64) = base := by
      rcases hbase with ⟨hindex, hbase⟩ | ⟨hindex, hbase⟩
      · exact hbase.barValue hindex
      · exact hbase.barValue hindex
    rw [hvalue] at hfinds
    exact ⟨value, hfinds, hmasked⟩
  · intro hindex
    have hvalue : Ports.barValue space dev barIndex.toNat = (0, .kIndexOutOfRange) := by
      unfold Ports.barValue
      rcases hindex with hindex | ⟨hindex, hkind⟩
      · rw [if_pos hindex]
      · rw [hindex, if_neg (by decide), if_neg hkind, if_pos (by decide)]
    rwa [hvalue] at hfinds

/-- The sample machine with a 64-bit base address register in its xHC. -/
def barSpace : ConfigSpace := fun bus device function i =>
  if bus = 1 ∧ device = 0 ∧ function = 0 ∧ i = 4 then 0xf0000004
  else if bus = 1 ∧ device = 0 ∧ function = 0 ∧ i = 5 then 0x2
  else sampleSpace bus device function i

/-- The address behind the first base address register of the example, a 64-bit one, is found
through the ports. -/
theorem readBar_roundTrip_sample : ∃ value,
    Finds plainLatch barSpace (readBar (entry barSpace 1 0 0) 0) (value, .kSuccess) ∧
      value &&& ~~~(0xf : BitVec 64) = 0x2f0000000 := by
  obtain ⟨hread, -⟩ := @readBar_roundTrip plainLatch barSpace (entry barSpace 1 0 0)
    ⟨by decide, by decide⟩ 0
  refine hread 0x2f0000000 (Or.inr ⟨by decide, ?_⟩)
  constructor
  case aligned => decide
  case lower => exact ⟨4, by decide, by decide, by decide⟩
  case upper => decide

end Bar

/-! ## The whole phase -/

/-- The table after the scan. -/
def tableOf (space : ConfigSpace) : Found :=
  Table.empty.fill ((scannedBuses space).flatMap (preorderOf space))

/-- The space after the ports of the controller were switched over: USB3_PSSEN is written with
what USB3PRM holds, and XUSB2PR with what XUSB2PRM holds. -/
def switched (latch : Latch) (space : ConfigSpace) (xhcDev : Device) : ConfigSpace :=
  let bus := xhcDev.bus
  let device := xhcDev.device.setWidth 5
  let function := xhcDev.function.setWidth 3
  fun bus' device' function' i =>
    if bus' = bus ∧ device' = device ∧ function' = function ∧ i = 0x36 then
      latch bus device function 0x36 (space bus device function 0x36)
        (space bus device function 0x37)
    else if bus' = bus ∧ device' = device ∧ function' = function ∧ i = 0x34 then
      latch bus device function 0x34 (space bus device function 0x34)
        (space bus device function 0x35)
    else space bus' device' function' i

section Phase

variable (latch : Latch) {s : State} {n : Nat}

/-- A register that is read and then written to another one. -/
theorem run_copy {dev : Device} (h : InRange dev) (source target : BitVec 8)
    (next : Dialogue PortIo.Reply Unit) :
    ∃ address, (machine latch).run n ((readConfReg dev source).bind fun value =>
        (writeConfReg dev target value).bind fun _ => next) s =
      (machine latch).run n next ⟨address, setRegister s.space dev.bus (dev.device.setWidth 5)
        (dev.function.setWidth 3) (target.extractLsb' 2 6)
        (latch dev.bus (dev.device.setWidth 5) (dev.function.setWidth 3) (target.extractLsb' 2 6)
          (s.space dev.bus (dev.device.setWidth 5) (dev.function.setWidth 3)
            (target.extractLsb' 2 6))
          (register s.space dev.bus dev.device dev.function (source.extractLsb' 2 6)))⟩ := by
  obtain ⟨s₁, hread, hspace⟩ := @finds_readConfReg latch s.space dev h source n s rfl
  refine ⟨makeAddress dev.bus dev.device dev.function target, ?_⟩
  rw [← store_makeAddress latch s.space dev.bus h.1 h.2 target, run_bind, hread, ← hspace]
  rfl

/-- `SwitchEhci2Xhci` writes its two registers if there is an EHC of Intel in the table, and
otherwise leaves the configuration space as it is. -/
theorem run_switchEhci2Xhci {devices : List Device} {xhcDev : Device} (h : InRange xhcDev) :
    ∃ s', (machine latch).run n (switchEhci2Xhci devices xhcDev) s = some ((), s') ∧
      s'.space = if hasIntelEhc s.space devices then switched latch s.space xhcDev
        else s.space := by
  obtain ⟨s₁, hexists, hspace⟩ := @finds_intelEhcExists latch s.space devices n s rfl
  unfold switchEhci2Xhci
  change ∃ s', (machine latch).run n ((intelEhcExists devices).bind _) s = _ ∧ _
  rw [run_bind, hexists]
  cases hasIntelEhc s.space devices with
  | false => exact ⟨s₁, rfl, hspace⟩
  | true =>
      simp only [Option.bind_some, Bool.true_eq_false, if_false, if_true]
      obtain ⟨address, hfirst⟩ := @run_copy latch s₁ n xhcDev h 0xdc 0xd8
        ((readConfReg xhcDev 0xd4).bind fun value =>
          (writeConfReg xhcDev 0xd0 value).bind fun _ => .done ())
      obtain ⟨address', hsecond⟩ := @run_copy latch _ n xhcDev h 0xd4 0xd0 (.done ())
      refine ⟨_, hfirst.trans hsecond, ?_⟩
      have hpssen : (0xd8 : BitVec 8).extractLsb' 2 6 = 0x36 := by decide
      have husb3prm : (0xdc : BitVec 8).extractLsb' 2 6 = 0x37 := by decide
      have hxusb2pr : (0xd0 : BitVec 8).extractLsb' 2 6 = 0x34 := by decide
      have hxusb2prm : (0xd4 : BitVec 8).extractLsb' 2 6 = 0x35 := by decide
      have hother : (0x34 : BitVec 6) ≠ 0x36 := by decide
      have hother' : (0x35 : BitVec 6) ≠ 0x36 := by decide
      funext bus device function i
      simp only [hspace, hpssen, husb3prm, hxusb2pr, hxusb2prm, setRegister, register, switched,
        hother, hother', and_false, if_false]
      by_cases hi : i = 0x36
      · simp only [hi, hother.symm, and_false, if_false]
      · simp only [hi, and_false, if_false]

end Phase

/-- The devices in the table have been scanned, so their numbers are in range and `MakeAddress`
does not cut them off. -/
theorem inRange_of_mem_tableOf {space : ConfigSpace} {dev : Device}
    (h : dev ∈ (tableOf space).entries) : InRange dev := by
  obtain ⟨bus, _, hlisted⟩ := List.mem_flatMap.mp (List.mem_of_mem_take h)
  obtain ⟨_, bus', _, _, hdev⟩ := RootedTree.mem_listing.mp hlisted
  obtain ⟨device, function, hdevice, hfunction, -, rfl⟩ := mem_functionsOf.mp hdev
  exact ⟨hdevice, hfunction⟩

/-- What is left of the phase once a controller is selected: its ports are switched over if it
is one of Intel, and its first BAR is read and freed of the flags. -/
theorem run_useXhc (latch : Latch) {s : State} {n : Nat} {space : ConfigSpace}
    (hspace : s.space = space) {xhcDev : Device} (h : InRange xhcDev) (devices : List Device) :
    ∃ s', (machine latch).run n (useXhc devices (some xhcDev)) s =
        some (.ok (some (xhcDev, (barValue space xhcDev 0).1 &&& ~~~(0xf : BitVec 64))), s') ∧
      s'.space = if isIntel space xhcDev && hasIntelEhc space devices then
        switched latch space xhcDev else space := by
  obtain ⟨s₁, hbar, hspace₁⟩ := @finds_readBar latch space xhcDev h 0 n s hspace
  obtain ⟨s₂, hvendor, hspace₂⟩ := finds_readVendorId latch space xhcDev.bus xhcDev.device
    xhcDev.function n s₁ hspace₁
  unfold useXhc
  change ∃ s', (machine latch).run n ((readBar xhcDev 0).bind _) s = _ ∧ _
  rw [run_bind, hbar]
  change ∃ s', (machine latch).run n ((readVendorId _ _ _).bind _) s₁ = _ ∧ _
  rw [run_bind, hvendor]
  simp only [Option.bind_some]
  by_cases hintel : intel = Pci.readVendorId space xhcDev.bus xhcDev.device xhcDev.function
  · have hthis : isIntel space xhcDev = true := decide_eq_true hintel
    obtain ⟨s₃, hswitch, hspace₃⟩ := @run_switchEhci2Xhci latch s₂ n devices xhcDev h
    rw [if_pos hintel, hthis, Bool.true_and, ← hspace₂]
    refine ⟨s₃, ?_, hspace₃⟩
    change (machine latch).run n ((switchEhci2Xhci devices xhcDev).bind _) s₂ = _
    rw [run_bind, hswitch]
    rfl
  · have hthis : isIntel space xhcDev = false := decide_eq_false hintel
    rw [if_neg hintel, hthis]
    exact ⟨s₂, rfl, hspace₂⟩

/-- The phase up to the search: the scan fills the table through the ports and changes no
register, and what is left is the phase with that table. -/
theorem run_usePci (latch : Latch) (s : State) (n : Nat) :
    ∃ s₁, s₁.space = s.space ∧ (machine latch).run n usePci s =
      (machine latch).run n (useXhc (tableOf s.space).entries
        (selectXhc s.space (tableOf s.space).entries)) s₁ := by
  obtain ⟨s₁, hscan, hspace₁⟩ := @finds_scanAllBus latch s.space n s rfl
  obtain ⟨s₂, hlist, hspace₂⟩ := @finds_listDevices latch s.space (tableOf s.space).entries n s₁
    hspace₁
  obtain ⟨s₃, hfind, hspace₃⟩ := @finds_findXhc latch s.space (tableOf s.space).entries none n s₂
    hspace₂
  rw [scanAllBus_eq] at hscan
  rw [Option.or_none] at hfind
  refine ⟨s₃, hspace₃, ?_⟩
  rw [usePci, bindOk, run_bind, hscan]
  change (machine latch).run n ((listDevices (tableOf s.space).entries).bind _) s₁ = _
  rw [run_bind, hlist]
  change (machine latch).run n ((findXhc (tableOf s.space).entries none).bind _) s₂ = _
  rw [run_bind, hfind]
  rfl

/-- **From the buses to the registers of the controller.**  The kernel halts exactly if the
table of the scan has no xHC.  Otherwise it uses one of them, of Intel if there is one, and finds
its registers where the firmware has put them.  Nothing in the configuration space changes,
except that with a controller and an EHC of Intel the ports are switched over. -/
theorem usePci_outcome (latch : Latch) (s : State) (n : Nat) :
    ∃ result s', (machine latch).run n usePci s = some (.ok result, s') ∧
      (result = none ↔ ∀ dev ∈ (tableOf s.space).entries, isXhc dev = false) ∧
      (result = none → s'.space = s.space) ∧
      ∀ xhcDev mmioBase, result = some (xhcDev, mmioBase) →
        (xhcDev ∈ (tableOf s.space).entries ∧ isXhc xhcDev = true ∧
          (isIntel s.space xhcDev = false → ∀ dev ∈ (tableOf s.space).entries, isXhc dev = true →
            isIntel s.space dev = false)) ∧
        (∀ base, Memory32 s.space xhcDev 0 base ∨ Memory64 s.space xhcDev 0 base →
          mmioBase = base) ∧
        s'.space = if isIntel s.space xhcDev && hasIntelEhc s.space (tableOf s.space).entries then
          switched latch s.space xhcDev else s.space := by
  obtain ⟨s₁, hspace₁, hrun⟩ := run_usePci latch s n
  obtain ⟨hselected, hnone⟩ := selectXhc_spec s.space (tableOf s.space).entries
  rw [hrun]
  cases hselect : selectXhc s.space (tableOf s.space).entries with
  | none =>
      refine ⟨none, s₁, rfl, ?_, fun _ => hspace₁, fun _ _ h => ?_⟩
      · rw [← hnone, hselect]
        exact iff_of_true rfl rfl
      · cases h
  | some xhcDev =>
      have hdev := hselected xhcDev hselect
      obtain ⟨s', hleft, hspace'⟩ := run_useXhc latch hspace₁ (inRange_of_mem_tableOf hdev.1)
        (tableOf s.space).entries
      refine ⟨_, s', hleft, ?_, fun h => ?_, ?_⟩
      · rw [← hnone, hselect]
        exact iff_of_false (Option.some_ne_none _) (Option.some_ne_none _)
      · cases h
      · intro dev mmioBase h
        have hpair := Option.some.inj h
        obtain ⟨rfl, rfl⟩ := Prod.mk.inj hpair
        refine ⟨hdev, fun base hbase => ?_, hspace'⟩
        rcases hbase with hbase | hbase
        · obtain ⟨value, hvalue, hmasked⟩ := hbase.barValue (by decide)
          rw [hvalue]
          exact hmasked
        · obtain ⟨value, hvalue, hmasked⟩ := hbase.barValue (by decide)
          rw [hvalue]
          exact hmasked

end Ports

end Mikanos.Pci
