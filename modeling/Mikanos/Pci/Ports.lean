import Mikanos.Lib.Dialogue
import Mikanos.Lib.DataRefinement
import Mikanos.Pci.ScanDepth

/-!
# The configuration space behind two I/O ports

The driver reaches a configuration register in two steps: it writes the address to the port
CONFIG_ADDRESS, and then it reads or writes the port CONFIG_DATA.  Here its functions are
dialogues over `IoOut32` and `IoIn32`, and the scan is made of them.

Played against the ports of a machine they compute what `Pci/Config` and `Pci/Scan` say of the
configuration space (`reads_scanAllBus`), whatever address an earlier access has left behind.
Accesses in any order refine a memory of registers (`confAccess_simulates`).
-/

namespace Mikanos.Pci

open BoundedTable Dialogue Machine

/-- `kConfigAddress`. -/
def kConfigAddress : BitVec 16 := 0x0cf8

/-- `kConfigData`. -/
def kConfigData : BitVec 16 := 0x0cfc

/-- An access to an I/O port. -/
inductive PortIo where
  | ioOut32 (addr : BitVec 16) (data : BitVec 32)
  | ioIn32 (addr : BitVec 16)
  deriving DecidableEq, Repr

/-- What an access returns. -/
def PortIo.Reply : PortIo → Type
  | .ioOut32 _ _ => Unit
  | .ioIn32 _ => BitVec 32

/-! ## The routines in assembly -/

/-- The registers `IoOut32` and `IoIn32` use. -/
structure Registers where
  rax : BitVec 64
  rdx : BitVec 64
  rdi : BitVec 64
  rsi : BitVec 64

/-- The instructions of `asmfunc.asm`. -/
inductive Instruction where
  | movDxDi
  | movEaxEsi
  | outDxEax
  | inEaxDx

/-- One instruction.  A write to a 16-bit register keeps the upper bits, one to a 32-bit
register clears them. -/
def Instruction.execute : Instruction → Registers → Dialogue PortIo.Reply Registers
  | .movDxDi, r => .done { r with rdx := r.rdx.extractLsb' 16 48 ++ r.rdi.setWidth 16 }
  | .movEaxEsi, r => .done { r with rax := (r.rsi.setWidth 32).setWidth 64 }
  | .outDxEax, r => .ask (.ioOut32 (r.rdx.setWidth 16) (r.rax.setWidth 32)) fun _ => .done r
  | .inEaxDx, r => .ask (.ioIn32 (r.rdx.setWidth 16)) fun (data : BitVec 32) =>
      .done { r with rax := data.setWidth 64 }

/-- The instructions up to `ret`. -/
def executeAll : List Instruction → Registers → Dialogue PortIo.Reply Registers
  | [], r => .done r
  | i :: rest, r => (i.execute r).bind (executeAll rest)

/-- `IoOut32` of `asmfunc.asm`. -/
def asmIoOut32 : List Instruction := [.movDxDi, .movEaxEsi, .outDxEax]

/-- `IoIn32` of `asmfunc.asm`. -/
def asmIoIn32 : List Instruction := [.movDxDi, .inEaxDx]

/-- The low half of a double word put together. -/
theorem setWidth_append (high : BitVec 48) (low : BitVec 16) :
    (high ++ low : BitVec 64).setWidth 16 = low := BitVec.setWidth_append_eq_right

/-- What `IoIn32` returns in the low half of a register is the whole of the value. -/
theorem setWidth_setWidth (value : BitVec 32) :
    (value.setWidth 64 : BitVec 64).setWidth 32 = value := by
  rw [BitVec.setWidth_setWidth_of_le _ (by decide), BitVec.setWidth_eq]

/-- Two writes to the port of the same address and data are the same question. -/
theorem ask_ioOut32_congr {R : Type} {addr addr' : BitVec 16} {data data' : BitVec 32}
    (haddr : addr = addr') (hdata : data = data') (p : Dialogue PortIo.Reply R) :
    Dialogue.ask (.ioOut32 addr data) (fun _ => p) = .ask (.ioOut32 addr' data') fun _ => p := by
  rw [haddr, hdata]

/-- Two reads of the same port are the same question, and the answer decides how to go on. -/
theorem ask_ioIn32_congr {R : Type} {addr addr' : BitVec 16} (haddr : addr = addr')
    (next : BitVec 32 → Dialogue PortIo.Reply R) :
    Dialogue.ask (PortIo.ioIn32 addr) (fun (data : BitVec 32) => next data) =
      .ask (PortIo.ioIn32 addr') fun (data : BitVec 32) => next data := by
  rw [haddr]

/-- `IoOut32(addr, data)`. -/
def ioOut32 (addr : BitVec 16) (data : BitVec 32) : Dialogue PortIo.Reply Unit :=
  .ask (PortIo.ioOut32 addr data) .done

/-- `IoIn32(addr)`. -/
def ioIn32 (addr : BitVec 16) : Dialogue PortIo.Reply (BitVec 32) :=
  .ask (PortIo.ioIn32 addr) .done

/-- **`IoOut32` writes its second argument to the port of its first**, whatever the upper bits
of the argument registers are; `rdi` and `rsi` are as before. -/
theorem executeAll_asmIoOut32 (r : Registers) :
    ∃ r' : Registers, executeAll asmIoOut32 r =
      (ioOut32 (r.rdi.setWidth 16) (r.rsi.setWidth 32)).bind (fun _ => .done r') ∧
      r'.rdi = r.rdi ∧ r'.rsi = r.rsi := by
  have hport := setWidth_append (r.rdx.extractLsb' 16 48) (r.rdi.setWidth 16)
  have hdata := setWidth_setWidth (r.rsi.setWidth 32)
  exact ⟨_, ask_ioOut32_congr hport hdata (.done _), rfl, rfl⟩

/-- **`IoIn32` returns what it reads from the port of its argument.** -/
theorem executeAll_asmIoIn32 (r : Registers) :
    ∃ r' : BitVec 32 → Registers, executeAll asmIoIn32 r =
      (ioIn32 (r.rdi.setWidth 16)).bind (fun data => .done (r' data)) ∧
      ∀ data, (r' data).rax.setWidth 32 = data ∧ (r' data).rdi = r.rdi := by
  have hport := setWidth_append (r.rdx.extractLsb' 16 48) (r.rdi.setWidth 16)
  refine ⟨fun data => { r with
    rdx := r.rdx.extractLsb' 16 48 ++ r.rdi.setWidth 16
    rax := data.setWidth 64 }, ask_ioIn32_congr hport _, fun data => ⟨?_, rfl⟩⟩
  exact setWidth_setWidth data

/-! ## The driver's functions -/

namespace Ports

/-- `WriteAddress(address)`. -/
def writeAddress (address : BitVec 32) : Dialogue PortIo.Reply Unit :=
  ioOut32 kConfigAddress address

/-- `WriteData(value)`. -/
def writeData (value : BitVec 32) : Dialogue PortIo.Reply Unit :=
  ioOut32 kConfigData value

/-- `ReadData()`. -/
def readData : Dialogue PortIo.Reply (BitVec 32) := ioIn32 kConfigData

/-- `ReadVendorId(bus, device, function)`. -/
def readVendorId (bus device function : BitVec 8) : Dialogue PortIo.Reply (BitVec 16) := do
  writeAddress (makeAddress bus device function 0x00)
  return ((← readData) &&& 0xffff).setWidth 16

/-- `ReadDeviceId(bus, device, function)`. -/
def readDeviceId (bus device function : BitVec 8) : Dialogue PortIo.Reply (BitVec 16) := do
  writeAddress (makeAddress bus device function 0x00)
  return ((← readData) >>> 16).setWidth 16

/-- `ReadHeaderType(bus, device, function)`. -/
def readHeaderType (bus device function : BitVec 8) : Dialogue PortIo.Reply (BitVec 8) := do
  writeAddress (makeAddress bus device function 0x0c)
  return (((← readData) >>> 16) &&& 0xff).setWidth 8

/-- `ReadClassCode(bus, device, function)`. -/
def readClassCode (bus device function : BitVec 8) : Dialogue PortIo.Reply ClassCode := do
  writeAddress (makeAddress bus device function 0x08)
  let reg ← readData
  return {
    base := ((reg >>> 24) &&& 0xff).setWidth 8
    sub := ((reg >>> 16) &&& 0xff).setWidth 8
    interface := ((reg >>> 8) &&& 0xff).setWidth 8 }

/-- `ReadBusNumbers(bus, device, function)`. -/
def readBusNumbers (bus device function : BitVec 8) : Dialogue PortIo.Reply (BitVec 32) := do
  writeAddress (makeAddress bus device function 0x18)
  readData

/-- `ReadConfReg(dev, reg_addr)`. -/
def readConfReg (dev : Device) (regAddr : BitVec 8) : Dialogue PortIo.Reply (BitVec 32) := do
  writeAddress (makeAddress dev.bus dev.device dev.function regAddr)
  readData

/-- `WriteConfReg(dev, reg_addr, value)`. -/
def writeConfReg (dev : Device) (regAddr : BitVec 8) (value : BitVec 32) :
    Dialogue PortIo.Reply Unit := do
  writeAddress (makeAddress dev.bus dev.device dev.function regAddr)
  writeData value

/-- The result of a scanning function: a fault, or an error code and the table. -/
abbrev ScanResult := Except Fault (Error × Found)

/-- `ScanFunction(bus, device, function)`, with the `ScanBus` it calls. -/
def scanFunction (scanBus : BitVec 8 → Found → Dialogue PortIo.Reply ScanResult)
    (bus device function : BitVec 8) (found : Found) : Dialogue PortIo.Reply ScanResult := do
  let headerType ← readHeaderType bus device function
  let classCode ← readClassCode bus device function
  let dev : Device := ⟨bus, device, function, headerType, classCode⟩
  let result := addDevice dev found
  if result.1 ≠ .kSuccess then return .ok result
  else if classCode.matches 0x06 0x04 then do
    let busNumbers ← readBusNumbers bus device function
    scanBus (((busNumbers >>> 8) &&& 0xff).setWidth 8) result.2
  else return .ok (.kSuccess, result.2)

/-- The loop of `ScanDevice` over the functions other than function 0. -/
def functionRound (scanBus : BitVec 8 → Found → Dialogue PortIo.Reply ScanResult)
    (bus device function : BitVec 8) (found : Found) : Dialogue PortIo.Reply ScanResult := do
  let vendorId ← readVendorId bus device function
  if vendorId = 0xffff then return .ok (.kSuccess, found)
  else scanFunction scanBus bus device function found

/-- `ScanDevice(bus, device)`. -/
def scanDevice (scanBus : BitVec 8 → Found → Dialogue PortIo.Reply ScanResult)
    (bus device : BitVec 8) (found : Found) : Dialogue PortIo.Reply ScanResult :=
  (scanFunction scanBus bus device 0 found).bindOk fun result =>
    if result.1 ≠ .kSuccess then return .ok result
    else do
      let headerType ← readHeaderType bus device 0
      if isSingleFunctionDevice headerType then return .ok (.kSuccess, result.2)
      else forEach .kSuccess (functionRound scanBus bus device) (uint8Range 1 8) result.2

/-- `ScanBus(bus)`, with at most `n` nested calls. -/
def scanBusTo : Nat → BitVec 8 → Found → Dialogue PortIo.Reply ScanResult
  | 0, _, _ => return .error .endlessLoop
  | n + 1, bus, found =>
      forEach .kSuccess (fun device found => do
        let vendorId ← readVendorId bus device 0
        if vendorId = 0xffff then return .ok (.kSuccess, found)
        else scanDevice (scanBusTo n) bus device found) (uint8Range 0 32) found

/-- `ScanBus(bus)`: as many nested calls as there are buses. -/
def scanBus (bus : BitVec 8) (found : Found) : Dialogue PortIo.Reply ScanResult :=
  scanBusTo 256 bus found

/-- `ScanAllBus()`. -/
def scanAllBus : Dialogue PortIo.Reply ScanResult := do
  let headerType ← readHeaderType 0 0 0
  if isSingleFunctionDevice headerType then scanBus 0 Table.empty
  else forEach .kSuccess (fun function found => do
    let vendorId ← readVendorId 0 0 function
    if vendorId = 0xffff then return .ok (.kSuccess, found)
    else scanBus function found) (uint8Range 1 8) Table.empty

/-! ## The ports of a machine -/

/-- What a configuration register holds after `written` was written to it, when it held
`old`: some bits cannot be written. -/
abbrev Latch := BitVec 8 → BitVec 5 → BitVec 3 → BitVec 6 → BitVec 32 → BitVec 32 → BitVec 32

/-- The address that is selected, and the registers of all functions. -/
structure State where
  configAddress : BitVec 32
  space : ConfigSpace

/-- The space with another value in one register. -/
def setRegister (space : ConfigSpace) (bus : BitVec 8) (device : BitVec 5) (function : BitVec 3)
    (i : BitVec 6) (value : BitVec 32) : ConfigSpace :=
  fun bus' device' function' i' =>
    if bus' = bus ∧ device' = device ∧ function' = function ∧ i' = i then value
    else space bus' device' function' i'

/-- A write to CONFIG_DATA: of the register that is addressed, if the enable bit is set. -/
def store (latch : Latch) (space : ConfigSpace) (address value : BitVec 32) : ConfigSpace :=
  let bus := address.extractLsb' 16 8
  let device := address.extractLsb' 11 5
  let function := address.extractLsb' 8 3
  let i := address.extractLsb' 2 6
  if address.getLsbD 31 then
    setRegister space bus device function i
      (latch bus device function i (space bus device function i) value)
  else space

/-- The machine behind the ports.  It has no other ones. -/
def machine (latch : Latch) : Machine PortIo.Reply State
  | s, .ioOut32 addr data =>
      if addr = kConfigAddress then ((), { s with configAddress := data })
      else if addr = kConfigData then
        ((), { s with space := store latch s.space s.configAddress data })
      else ((), s)
  | s, .ioIn32 addr =>
      if addr = kConfigAddress then (s.configAddress, s)
      else if addr = kConfigData then (Pci.readData s.space s.configAddress, s)
      else (BitVec.allOnes 32, s)

/-! ## The scan -/

section Scan

variable (latch : Latch) (space : ConfigSpace)

/-- The program finds `r` in the configuration space, and writes no register. -/
abbrev Finds {R : Type} (p : Dialogue PortIo.Reply R) (r : R) : Prop :=
  (machine latch).Yields State.space space p r

/-- An address, and then the data there. -/
theorem finds_readData (address : BitVec 32) :
    Finds latch space ((writeAddress address).bind fun _ => readData)
      (Pci.readData space address) := by
  intro n s hs
  subst hs
  exact ⟨{ s with configAddress := address }, rfl, rfl⟩

/-- A field of the data. -/
theorem finds_field {R : Type} (address : BitVec 32) (f : BitVec 32 → R) :
    Finds latch space ((writeAddress address).bind fun _ => readData.bind fun v => .done (f v))
      (f (Pci.readData space address)) :=
  (finds_readData latch space address).bind (yields_done _)

/-- The vendor of a function, read through the ports: it is the one in the configuration space.
-/
theorem finds_readVendorId (bus device function : BitVec 8) :
    Finds latch space (readVendorId bus device function)
      (Pci.readVendorId space bus device function) :=
  finds_field latch space _ fun v => (v &&& 0xffff).setWidth 16

/-- The header type, in the third register of the header. -/
theorem finds_readHeaderType (bus device function : BitVec 8) :
    Finds latch space (readHeaderType bus device function)
      (Pci.readHeaderType space bus device function) :=
  finds_field latch space _ fun v => ((v >>> 16) &&& 0xff).setWidth 8

/-- The class code, from which the kind of a device is known. -/
theorem finds_readClassCode (bus device function : BitVec 8) :
    Finds latch space (readClassCode bus device function)
      (Pci.readClassCode space bus device function) :=
  finds_field latch space _ fun reg => (⟨((reg >>> 24) &&& 0xff).setWidth 8,
    ((reg >>> 16) &&& 0xff).setWidth 8, ((reg >>> 8) &&& 0xff).setWidth 8⟩ : ClassCode)

/-- The bus numbers of a bridge. -/
theorem finds_readBusNumbers (bus device function : BitVec 8) :
    Finds latch space (readBusNumbers bus device function)
      (Pci.readBusNumbers space bus device function) :=
  finds_readData latch space _

variable {latch space} {scanBus : BitVec 8 → Found → Dialogue PortIo.Reply ScanResult}
  {scanBus' : BitVec 8 → Found → ScanResult}

/-- A scan of a function through the ports finds what the scan of the space finds, if it is so
for the buses below. -/
theorem finds_scanFunction
    (h : ∀ bus found, Finds latch space (scanBus bus found) (scanBus' bus found))
    (bus device function : BitVec 8) (found : Found) :
    Finds latch space (scanFunction scanBus bus device function found)
      (Pci.scanFunction space scanBus' bus device function found) := by
  refine (finds_readHeaderType latch space bus device function).bind ?_
  refine (finds_readClassCode latch space bus device function).bind ?_
  refine yields_ite (yields_done _) (yields_ite ?_ (yields_done _))
  exact (finds_readBusNumbers latch space bus device function).bind (h _ _)

/-- A function that is scanned if it has a vendor. -/
theorem finds_ifVendor {p : Dialogue PortIo.Reply ScanResult} {r : ScanResult}
    (h : Finds latch space p r) (bus device function : BitVec 8) (found : Found) :
    Finds latch space (do
        let vendorId ← readVendorId bus device function
        if vendorId = 0xffff then return .ok (.kSuccess, found) else p)
      (if Pci.readVendorId space bus device function = 0xffff then .ok (.kSuccess, found)
        else r) :=
  (finds_readVendorId latch space bus device function).bind (yields_ite (yields_done _) h)

/-- The loop over the functions of a device keeps the simulation, one round after the other:
through the ports it finds what the plain loop finds. -/
theorem finds_scanDevice
    (h : ∀ bus found, Finds latch space (scanBus bus found) (scanBus' bus found))
    (bus device : BitVec 8) (found : Found) :
    Finds latch space (scanDevice scanBus bus device found)
      (Pci.scanDevice space scanBus' bus device found) := by
  refine (finds_scanFunction h bus device 0 found).bindOk fun result => ?_
  refine yields_ite (yields_done _) ((finds_readHeaderType latch space bus device 0).bind ?_)
  refine yields_ite (yields_done _) (yields_forEach (fun function found => ?_) _ _)
  exact finds_ifVendor (finds_scanFunction h bus device function found) bus device function found

/-- `ScanBus`, by induction on the nested calls. -/
theorem finds_scanBusTo (n : Nat) : ∀ bus found,
    Finds latch space (scanBusTo n bus found) (Pci.scanBusTo space n bus found) := by
  induction n with
  | zero => exact fun _ _ => yields_done _
  | succ n ih =>
      intro bus found
      refine yields_forEach (fun device found => ?_) _ _
      exact finds_ifVendor (finds_scanDevice ih bus device found) bus device 0 found

/-- **`ScanAllBus` through the ports** fills the table as `ScanAllBus` on the configuration
space does, whatever is latched in the address port before. -/
theorem finds_scanAllBus : Finds latch space scanAllBus (Pci.scanAllBus space) := by
  refine (finds_readHeaderType latch space 0 0 0).bind (yields_ite ?_ ?_)
  · exact finds_scanBusTo 256 0 Table.empty
  · refine yields_forEach (fun function found => ?_) _ _
    exact finds_ifVendor (finds_scanBusTo 256 function found) 0 0 function found

end Scan

/-! ## What the scan does to the ports -/

/-- An address with its enable bit set and its reserved bits clear. -/
def WellFormed (address : BitVec 32) : Prop :=
  address.getLsbD 31 = true ∧ address.extractLsb' 24 7 = 0 ∧ address.extractLsb' 0 2 = 0

/-- Looking only: a well-formed address, and then the data there is read, and so on.  The state
tells whether the data is to be read next. -/
def lookOnly : Protocol PortIo.Reply Bool where
  next := fun s _ => !s
  allowed
    | s, .ioOut32 addr data => s = false ∧ addr = kConfigAddress ∧ WellFormed data
    | s, .ioIn32 addr => s = true ∧ addr = kConfigData
  expected := fun _ _ => True

/-- `MakeAddress` always makes an address that the bridge takes for a configuration access: the
enable bit is set and the reserved bits are not. -/
theorem wellFormed_makeAddress (bus device function regAddr : BitVec 8) :
    WellFormed (makeAddress bus device function regAddr) := by
  have hhigh : ∀ (b : BitVec 8) i, 8 ≤ i → b.getLsbD i = false :=
    fun b i h => BitVec.getLsbD_of_ge b i h
  have hzero : ∀ (w i : Nat), (0 : BitVec w).getLsbD i = false := fun _ _ => BitVec.getLsbD_zero
  refine ⟨?_, ?_, ?_⟩
  · rw [getLsbD_makeAddress _ _ _ _ (by decide)]
    rfl
  · apply BitVec.eq_of_getLsbD_eq
    intro i hi
    rw [BitVec.getLsbD_extractLsb', getLsbD_makeAddress _ _ _ _ (by omega), hzero]
    grind
  · apply BitVec.eq_of_getLsbD_eq
    intro i hi
    rw [BitVec.getLsbD_extractLsb', getLsbD_makeAddress _ _ _ _ (by omega), hzero]
    grind

/-- The program looks only. -/
abbrev LooksOnly {R : Type} (p : Dialogue PortIo.Reply R) : Prop :=
  lookOnly.Maintains (· = false) p

/-- An address and the data there. -/
theorem looksOnly_field {R : Type} (bus device function regAddr : BitVec 8) (f : BitVec 32 → R) :
    LooksOnly ((writeAddress (makeAddress bus device function regAddr)).bind fun _ =>
      readData.bind fun v => .done (f v)) := by
  intro s hs
  subst hs
  have haddress := wellFormed_makeAddress bus device function regAddr
  exact ⟨⟨rfl, rfl, haddress⟩, fun _ _ => ⟨⟨rfl, rfl⟩, fun _ _ => rfl⟩⟩

/-- Reading the vendor writes nothing but the address port. -/
theorem looksOnly_readVendorId (bus device function : BitVec 8) :
    LooksOnly (readVendorId bus device function) :=
  looksOnly_field bus device function 0x00 fun v => (v &&& 0xffff).setWidth 16

/-- Reading the header type of a function changes no configuration register. -/
theorem looksOnly_readHeaderType (bus device function : BitVec 8) :
    LooksOnly (readHeaderType bus device function) :=
  looksOnly_field bus device function 0x0c fun v => ((v >>> 16) &&& 0xff).setWidth 8

/-- Reading the class code of a function changes no configuration register. -/
theorem looksOnly_readClassCode (bus device function : BitVec 8) :
    LooksOnly (readClassCode bus device function) :=
  looksOnly_field bus device function 0x08 fun reg => (⟨((reg >>> 24) &&& 0xff).setWidth 8,
    ((reg >>> 16) &&& 0xff).setWidth 8, ((reg >>> 8) &&& 0xff).setWidth 8⟩ : ClassCode)

/-- Reading the bus numbers of a bridge changes no configuration register. -/
theorem looksOnly_readBusNumbers (bus device function : BitVec 8) :
    LooksOnly (readBusNumbers bus device function) :=
  looksOnly_field bus device function 0x18 id

section LooksOnly

variable {scanBus : BitVec 8 → Found → Dialogue PortIo.Reply ScanResult}

/-- A scan of a function only looks, if the scans of the buses below only look. -/
theorem looksOnly_scanFunction (h : ∀ bus found, LooksOnly (scanBus bus found))
    (bus device function : BitVec 8) (found : Found) :
    LooksOnly (scanFunction scanBus bus device function found) := by
  refine (looksOnly_readHeaderType bus device function).bind fun headerType => ?_
  refine (looksOnly_readClassCode bus device function).bind fun classCode => ?_
  refine Protocol.maintains_ite (Protocol.maintains_done _) (Protocol.maintains_ite ?_
    (Protocol.maintains_done _))
  exact (looksOnly_readBusNumbers bus device function).bind fun busNumbers => h _ _

/-- The test for a vendor in front of a step: without a device the step is left out. -/
theorem looksOnly_ifVendor {p : Dialogue PortIo.Reply ScanResult} (h : LooksOnly p)
    (bus device function : BitVec 8) (found : Found) :
    LooksOnly (do
      let vendorId ← readVendorId bus device function
      if vendorId = 0xffff then return .ok (.kSuccess, found) else p) :=
  (looksOnly_readVendorId bus device function).bind fun _ =>
    Protocol.maintains_ite (Protocol.maintains_done _) h

/-- The loop over the functions of a device changes no configuration register, as long as the
scans of the buses below change none. -/
theorem looksOnly_scanDevice (h : ∀ bus found, LooksOnly (scanBus bus found))
    (bus device : BitVec 8) (found : Found) : LooksOnly (scanDevice scanBus bus device found) := by
  refine (looksOnly_scanFunction h bus device 0 found).bindOk fun result => ?_
  refine Protocol.maintains_ite (Protocol.maintains_done _) ?_
  refine (looksOnly_readHeaderType bus device 0).bind fun headerType => ?_
  refine Protocol.maintains_ite (Protocol.maintains_done _) ?_
  refine Protocol.maintains_forEach (fun function found => ?_) _ _
  exact looksOnly_ifVendor (looksOnly_scanFunction h bus device function found) bus device
    function found

/-- By induction over the fuel: no scan of a bus writes to the data port. -/
theorem looksOnly_scanBusTo (n : Nat) : ∀ bus found, LooksOnly (scanBusTo n bus found) := by
  induction n with
  | zero => exact fun _ _ => Protocol.maintains_done _
  | succ n ih =>
      intro bus found
      refine Protocol.maintains_forEach (fun device found => ?_) _ _
      exact looksOnly_ifVendor (looksOnly_scanDevice ih bus device found) bus device 0 found

/-- **The scan changes no device**: in `ScanAllBus` the data port is read and never written. -/
theorem looksOnly_scanAllBus : LooksOnly scanAllBus := by
  refine (looksOnly_readHeaderType 0 0 0).bind fun headerType => Protocol.maintains_ite ?_ ?_
  · exact looksOnly_scanBusTo 256 0 Table.empty
  · refine Protocol.maintains_forEach (fun function found => ?_) _ _
    exact looksOnly_ifVendor (looksOnly_scanBusTo 256 function found) 0 0 function found

end LooksOnly

/-- **Scanning through the ports.**  Whatever address is selected before, the scan finds in the
end what `ScanAllBus` is to find in the configuration space, and leaves the space as it is.
Whatever the hardware answers, its accesses are pairs: a well-formed address to CONFIG_ADDRESS
and a read of CONFIG_DATA. -/
theorem scanAllBus_throughPorts (latch : Latch) (s : State) (n : Nat) :
    (∃ s', (machine latch).run n scanAllBus s = some (Pci.scanAllBus s.space, s') ∧
      s'.space = s.space) ∧
    ∀ trace rest, Runs scanAllBus trace rest → lookOnly.Obeyed false trace := by
  refine ⟨finds_scanAllBus n s rfl, fun trace rest hrun => ?_⟩
  exact ((looksOnly_scanAllBus false rfl).sound hrun
    (Protocol.answered_of_expected (fun _ _ => trivial) _ _)).1

/-! ## Registers as a memory -/

/-- An access to a configuration register of a device in the table. -/
inductive ConfAccess where
  | readConfReg (dev : Device) (regAddr : BitVec 8)
  | writeConfReg (dev : Device) (regAddr : BitVec 8) (value : BitVec 32)

namespace ConfAccess

/-- The device that is accessed. -/
def dev : ConfAccess → Device
  | readConfReg dev _ => dev
  | writeConfReg dev _ _ => dev

/-- The access through the ports, with the value read. -/
def perform : ConfAccess → Dialogue PortIo.Reply (Option (BitVec 32))
  | readConfReg dev regAddr => (Ports.readConfReg dev regAddr).bind fun v => .done (some v)
  | writeConfReg dev regAddr value =>
      (Ports.writeConfReg dev regAddr value).bind fun _ => .done none

/-- One access after the other. -/
def performAll : List ConfAccess → Dialogue PortIo.Reply (List (Option (BitVec 32)))
  | [] => .done []
  | a :: rest => a.perform.bind fun answer =>
      (performAll rest).bind fun answers => .done (answer :: answers)

/-- The access as one to a memory of registers. -/
def spec (latch : Latch) (space : ConfigSpace) : ConfAccess → Option (BitVec 32) × ConfigSpace
  | readConfReg dev regAddr =>
      (some (register space dev.bus dev.device dev.function (regAddr.extractLsb' 2 6)), space)
  | writeConfReg dev regAddr value =>
      let device := dev.device.setWidth 5
      let function := dev.function.setWidth 3
      let i := regAddr.extractLsb' 2 6
      (none, setRegister space dev.bus device function i
        (latch dev.bus device function i (space dev.bus device function i) value))

end ConfAccess

/-- The device and the function number are in their ranges. -/
def InRange (dev : Device) : Prop := dev.device.toNat < 32 ∧ dev.function.toNat < 8

/-- Writing at an address that `MakeAddress` makes changes the register of that bus, device and
function and no other register. -/
theorem store_makeAddress (latch : Latch) (space : ConfigSpace) (bus : BitVec 8)
    {device function : BitVec 8} (hdevice : device.toNat < 32) (hfunction : function.toNat < 8)
    (regAddr : BitVec 8) (value : BitVec 32) :
    store latch space (makeAddress bus device function regAddr) value =
      setRegister space bus (device.setWidth 5) (function.setWidth 3) (regAddr.extractLsb' 2 6)
        (latch bus (device.setWidth 5) (function.setWidth 3) (regAddr.extractLsb' 2 6)
          (space bus (device.setWidth 5) (function.setWidth 3) (regAddr.extractLsb' 2 6))
          value) := by
  have hdev : ∀ i, 5 ≤ i → device.getLsbD i = false :=
    fun i hi => getLsbD_of_toNat_lt hdevice hi
  have hfun : ∀ i, 3 ≤ i → function.getLsbD i = false :=
    fun i hi => getLsbD_of_toNat_lt hfunction hi
  have hhigh : ∀ (b : BitVec 8) i, 8 ≤ i → b.getLsbD i = false :=
    fun b i h => BitVec.getLsbD_of_ge b i h
  -- the coordinates lie next to each other in the address
  have hbit : ∀ (lo len i : Nat), i < len → lo + i < 32 →
      ((makeAddress bus device function regAddr).extractLsb' lo len).getLsbD i =
        (decide (lo + i = 31) || (decide (16 ≤ lo + i) && bus.getLsbD (lo + i - 16)) ||
          (decide (11 ≤ lo + i) && device.getLsbD (lo + i - 11)) ||
          (decide (8 ≤ lo + i) && function.getLsbD (lo + i - 8)) ||
          (decide (2 ≤ lo + i) && regAddr.getLsbD (lo + i))) := by
    intro lo len i hi hlo
    rw [BitVec.getLsbD_extractLsb', getLsbD_makeAddress _ _ _ _ hlo, decide_eq_true hi,
      Bool.true_and]
  have hbus : (makeAddress bus device function regAddr).extractLsb' 16 8 = bus := by
    apply BitVec.eq_of_getLsbD_eq
    intro i hi
    rw [hbit 16 8 i hi (by omega)]
    grind
  have hdevices : (makeAddress bus device function regAddr).extractLsb' 11 5 =
      device.setWidth 5 := by
    apply BitVec.eq_of_getLsbD_eq
    intro i hi
    rw [hbit 11 5 i hi (by omega), BitVec.getLsbD_setWidth]
    grind
  have hfunctions : (makeAddress bus device function regAddr).extractLsb' 8 3 =
      function.setWidth 3 := by
    apply BitVec.eq_of_getLsbD_eq
    intro i hi
    rw [hbit 8 3 i hi (by omega), BitVec.getLsbD_setWidth]
    grind
  have hregister : (makeAddress bus device function regAddr).extractLsb' 2 6 =
      regAddr.extractLsb' 2 6 := by
    apply BitVec.eq_of_getLsbD_eq
    intro i hi
    rw [hbit 2 6 i hi (by omega), BitVec.getLsbD_extractLsb']
    grind
  have henable := (wellFormed_makeAddress bus device function regAddr).1
  rw [store, hbus, hdevices, hfunctions, hregister, if_pos henable]

/-- One access through the two ports, a read or a write, has the result and the effect of an
access to the map of registers, whatever was in the address latch. -/
theorem perform_refines (latch : Latch) {a : ConfAccess} (h : InRange a.dev) (s : State)
    (n : Nat) : ∃ s', (machine latch).run n a.perform s = some ((a.spec latch s.space).1, s') ∧
      s'.space = (a.spec latch s.space).2 := by
  cases a with
  | readConfReg dev regAddr =>
      obtain ⟨hdevice, hfunction⟩ : InRange dev := h
      have hread := finds_field latch s.space (makeAddress dev.bus dev.device dev.function regAddr)
        some n s rfl
      rw [readData_makeAddress s.space dev.bus hdevice hfunction] at hread
      exact hread
  | writeConfReg dev regAddr value =>
      obtain ⟨hdevice, hfunction⟩ : InRange dev := h
      refine ⟨⟨makeAddress dev.bus dev.device dev.function regAddr, _⟩, rfl, ?_⟩
      exact store_makeAddress latch s.space dev.bus hdevice hfunction regAddr value

/-- **Accesses through the ports are accesses to a memory of registers.**  Any sequence of
`ReadConfReg` and `WriteConfReg` reads what was last put into the register it names, as its
latch has it, and changes no other register, whatever address was selected before. -/
theorem performAll_refines (latch : Latch) {accesses : List ConfAccess}
    (h : ∀ a ∈ accesses, InRange a.dev) (s : State) (n : Nat) :
    ∃ s', (machine latch).run n (ConfAccess.performAll accesses) s =
        some (DataRefinement.answers (ConfAccess.spec latch) s.space accesses, s') ∧
      s'.space = DataRefinement.after (ConfAccess.spec latch) s.space accesses := by
  induction accesses generalizing s with
  | nil => exact ⟨s, rfl, rfl⟩
  | cons a rest ih =>
      obtain ⟨s', hrun, hspace⟩ := perform_refines latch (h a List.mem_cons_self) s n
      obtain ⟨s'', hrest, hspace'⟩ := ih (fun b hb => h b (List.mem_cons_of_mem a hb)) s'
      rw [hspace] at hrest hspace'
      refine ⟨s'', ?_, hspace'⟩
      rw [ConfAccess.performAll, run_bind, hrun, Option.bind_some, run_bind, hrest]
      rfl

/-- Registers whose bits can all be written. -/
def plainLatch : Latch := fun _ _ _ _ _ written => written

/-- A register of the sample machine is written and read back, with the command register of
another function in between. -/
theorem performAll_refines_sample :
    ∃ s', (machine plainLatch).run 0 (ConfAccess.performAll
        [.writeConfReg (entry sampleSpace 1 0 0) 0xd0 7,
          .readConfReg (entry sampleSpace 0 1 0) 0x18,
          .readConfReg (entry sampleSpace 1 0 0) 0xd2]) ⟨0, sampleSpace⟩ =
      some ([none, some 0x00010100, some 7], s') := by
  obtain ⟨s', hrun, -⟩ := @performAll_refines plainLatch
    [.writeConfReg (entry sampleSpace 1 0 0) 0xd0 7,
      .readConfReg (entry sampleSpace 0 1 0) 0x18, .readConfReg (entry sampleSpace 1 0 0) 0xd2]
    (by
      intro a ha
      simp only [List.mem_cons, List.not_mem_nil, or_false] at ha
      rcases ha with rfl | rfl | rfl
      · exact ⟨by decide, by decide⟩
      · exact ⟨by decide, by decide⟩
      · exact ⟨by decide, by decide⟩) ⟨0, sampleSpace⟩ 0
  exact ⟨s', hrun⟩

end Ports

end Mikanos.Pci
