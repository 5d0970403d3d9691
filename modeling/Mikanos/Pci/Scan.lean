import Mikanos.Lib.BoundedTable
import Mikanos.Lib.RootedTree
import Mikanos.Pci.Config
import Mathlib.Data.FinEnum

/-!
# Scanning the PCI buses

`ScanBus` goes through the devices of a bus, `ScanDevice` through the functions of a
device, and `ScanFunction` adds a function to the global table `devices` and, at a
bridge, calls `ScanBus` for the bus behind it.  All three stop at the first error,
which is a full table.

What they are to find is `preorder (functionsOf space) (secondaryBus space)`: the
functions of a bus in order, each followed by what is behind it.  The source's
recursion has no bound of its own.  Every nested call has added an entry, so it ends
by the table of 32 entries at the latest, whatever the bridges say
(`scanBusTo_appends`).
-/

namespace Mikanos.Pci

open BoundedTable RootedTree

/-- `devices[0 .. num_device)`. -/
abbrev Found := Table Device 32

/-! ## The functions of a bus -/

/-- The values `from_ ≤ i < to` of a loop variable of type `uint8_t`. -/
def uint8Range (start stop : Nat) : List (BitVec 8) :=
  (List.range' start (stop - start)).map (BitVec.ofNat 8)

/-- What is known about a function. -/
def entry (space : ConfigSpace) (bus device function : BitVec 8) : Device where
  bus := bus
  device := device
  function := function
  headerType := (register space bus device function 3).extractLsb' 16 8
  classCode :=
    { base := (register space bus device function 2).extractLsb' 24 8
      sub := (register space bus device function 2).extractLsb' 16 8
      interface := (register space bus device function 2).extractLsb' 8 8 }

/-- The function has a vendor. -/
def hasVendor (space : ConfigSpace) (bus device function : BitVec 8) : Bool :=
  (register space bus device function 0).extractLsb' 0 16 != 0xffff

/-- Function 0 is marked as one of several. -/
def isMultiFunction (space : ConfigSpace) (bus device : BitVec 8) : Bool :=
  !isSingleFunctionDevice ((register space bus device 0 3).extractLsb' 16 8)

/-- The present functions of a device that has a function 0. -/
def functionsOfDevice (space : ConfigSpace) (bus device : BitVec 8) : List Device :=
  entry space bus device 0 ::
    if isMultiFunction space bus device then
      ((uint8Range 1 8).filter (hasVendor space bus device)).map (entry space bus device)
    else []

/-- The present functions of a bus, in order. -/
def functionsOf (space : ConfigSpace) (bus : BitVec 8) : List Device :=
  ((uint8Range 0 32).filter fun device => hasVendor space bus device 0).flatMap
    (functionsOfDevice space bus)

/-- The bus behind a PCI-PCI bridge. -/
def secondaryBus (space : ConfigSpace) (d : Device) : Option (BitVec 8) :=
  if d.classCode.matches 0x06 0x04 then
    some ((register space d.bus d.device d.function 6).extractLsb' 8 8)
  else none

/-! ## The scan -/

/-- `AddDevice(device)`. -/
def addDevice (device : Device) (found : Found) : Error × Found :=
  if h : found.entries.length = 32 then (.kFull, found)
  else (.kSuccess, ⟨found.entries ++ [device], by
    have hbound := found.bound
    rw [List.length_append, List.length_singleton]
    omega⟩)

/-- `ScanFunction(bus, device, function)`, with the `ScanBus` it calls. -/
def scanFunction (space : ConfigSpace)
    (scanBus : BitVec 8 → Found → Except Fault (Error × Found))
    (bus device function : BitVec 8) (found : Found) : Except Fault (Error × Found) :=
  let headerType := readHeaderType space bus device function
  let classCode := readClassCode space bus device function
  let dev : Device := ⟨bus, device, function, headerType, classCode⟩
  let result := addDevice dev found
  if result.1 ≠ .kSuccess then .ok result
  else if classCode.matches 0x06 0x04 then
    let busNumbers := readBusNumbers space bus device function
    scanBus (((busNumbers >>> 8) &&& 0xff).setWidth 8) result.2
  else .ok (.kSuccess, result.2)

/-- `ScanDevice(bus, device)`. -/
def scanDevice (space : ConfigSpace)
    (scanBus : BitVec 8 → Found → Except Fault (Error × Found))
    (bus device : BitVec 8) (found : Found) : Except Fault (Error × Found) :=
  (scanFunction space scanBus bus device 0 found).bind fun result =>
    if result.1 ≠ .kSuccess then .ok result
    else if isSingleFunctionDevice (readHeaderType space bus device 0) then
      .ok (.kSuccess, result.2)
    else forEach .kSuccess (fun function found =>
      if readVendorId space bus device function = 0xffff then .ok (.kSuccess, found)
      else scanFunction space scanBus bus device function found) (uint8Range 1 8) result.2

/-- `ScanBus(bus)`, with at most `n` nested calls. -/
def scanBusTo (space : ConfigSpace) : Nat → BitVec 8 → Found → Except Fault (Error × Found)
  | 0, _, _ => .error .endlessLoop
  | n + 1, bus, found =>
      forEach .kSuccess (fun device found =>
        if readVendorId space bus device 0 = 0xffff then .ok (.kSuccess, found)
        else scanDevice space (scanBusTo space n) bus device found) (uint8Range 0 32) found

/-- `ScanBus(bus)`: as many nested calls as there are buses. -/
def scanBus (space : ConfigSpace) (bus : BitVec 8) (found : Found) :
    Except Fault (Error × Found) :=
  scanBusTo space 256 bus found

/-! ## What each function appends -/

/-- A loop counter of eight bits takes exactly the values from its start up to its end, as long
as the end is at most 256. -/
theorem mem_uint8Range {start stop : Nat} (hstop : stop ≤ 256) {b : BitVec 8} :
    b ∈ uint8Range start stop ↔ start ≤ b.toNat ∧ b.toNat < stop := by
  unfold uint8Range
  rw [List.mem_map]
  constructor
  · rintro ⟨i, hi, rfl⟩
    rw [List.mem_range'_1] at hi
    rw [BitVec.toNat_ofNat, Nat.mod_eq_of_lt (by omega)]
    omega
  · rintro ⟨hstart, hlt⟩
    refine ⟨b.toNat, ?_, BitVec.ofNat_toNat _ _ |>.trans (BitVec.setWidth_eq b)⟩
    rw [List.mem_range'_1]
    omega

/-- A list of the elements that pass a test, as a list over all of them. -/
theorem flatMap_filter {α β : Type} (p : α → Bool) (f : α → List β) (as : List α) :
    (as.filter p).flatMap f = as.flatMap fun a => if p a then f a else [] := by
  induction as with
  | nil => rfl
  | cons a as ih =>
      by_cases hp : p a
      · rw [List.filter_cons_of_pos hp, List.flatMap_cons, List.flatMap_cons, ih, if_pos hp]
      · rw [List.filter_cons_of_neg hp, List.flatMap_cons, ih, if_neg hp, List.nil_append]

/-- A function, and what a scan of the bus behind it appends. -/
def withBus (space : ConfigSpace) (sub : BitVec 8 → List Device) (d : Device) : List Device :=
  d :: match secondaryBus space d with
    | none => []
    | some bus => sub bus

/-- One level of the listing. -/
theorem listing_functions (space : ConfigSpace) (n : Nat) (bus : BitVec 8) :
    listing (functionsOf space) (secondaryBus space) (n + 1) bus =
      (functionsOf space bus).flatMap
        (withBus space (listing (functionsOf space) (secondaryBus space) n)) := by
  rw [listing]
  refine List.flatMap_congr fun d _ => ?_
  rw [withBus]
  cases secondaryBus space d with
  | none => rfl
  | some bus => rfl

section Appends

variable {m : Nat} {scanBus : BitVec 8 → Found → Except Fault (Error × Found)}
  {sub : BitVec 8 → List Device}

/-- `AddDevice` appends one entry, or returns `kFull` if the table has no room for it. -/
theorem addDevice_appends (d : Device) :
    Appends .kSuccess .kFull m (fun found : Found => (.ok (addDevice d found) : Except Fault _))
      [d] := by
  intro found _
  have hbound := found.bound
  change Except.ok (addDevice d found) = _
  by_cases hfull : found.entries.length = 32
  · have hover : ¬ found.Fits [d] := by
      rw [Table.fits_singleton]
      omega
    have hsame : found.fill [d] = found := by
      apply Table.ext
      exact List.take_left' hfull
    rw [addDevice, dif_pos hfull, if_neg hover, hsame]
  · have hfits : found.Fits [d] := by
      rw [Table.fits_singleton]
      omega
    have hfill : (⟨found.entries ++ [d], by
        rw [List.length_append, List.length_singleton]
        omega⟩ : Found) = found.fill [d] := Table.ext (Table.entries_fill_of_fits hfits).symm
    rw [addDevice, dif_neg hfull, if_pos hfits, hfill]

/-- `ScanFunction` appends the function and, for a bridge, what the scan of the bus behind it
appends. -/
theorem scanFunction_appends (space : ConfigSpace)
    (hsub : ∀ bus, Appends .kSuccess .kFull (m + 1) (scanBus bus) (sub bus))
    (bus : BitVec 8) {device function : BitVec 8} (hdevice : device.toNat < 32)
    (hfunction : function.toNat < 8) :
    Appends .kSuccess .kFull m (scanFunction space scanBus bus device function)
      (withBus space sub (entry space bus device function)) := by
  have hheader := readHeaderType_eq space bus hdevice hfunction
  have hclass : readClassCode space bus device function =
      (entry space bus device function).classCode := readClassCode_eq space bus hdevice hfunction
  have hbehind : Appends .kSuccess .kFull (m + 1) (fun found : Found =>
      if (entry space bus device function).classCode.matches 0x06 0x04 then
        scanBus (((readBusNumbers space bus device function >>> 8) &&& 0xff).setWidth 8) found
      else .ok (.kSuccess, found))
      (match secondaryBus space (entry space bus device function) with
        | none => []
        | some bus => sub bus) := by
    unfold secondaryBus
    split
    · rw [readBusNumbers_eq space bus hdevice hfunction, byte_of_register]
      exact hsub _
    · exact appends_nil
  have hall := (addDevice_appends (entry space bus device function)).andThen (by decide) hbehind
  unfold scanFunction
  rw [hheader, hclass]
  exact hall

/-- `ScanDevice` appends the functions of the device in their order, each with what is behind
it: function 0, and the others if there are several. -/
theorem scanDevice_appends (space : ConfigSpace)
    (hsub : ∀ bus, Appends .kSuccess .kFull (m + 1) (scanBus bus) (sub bus))
    (bus : BitVec 8) {device : BitVec 8} (hdevice : device.toNat < 32) :
    Appends .kSuccess .kFull m (scanDevice space scanBus bus device)
      ((functionsOfDevice space bus device).flatMap (withBus space sub)) := by
  have hrest : Appends .kSuccess .kFull m (fun found : Found =>
      if isSingleFunctionDevice (readHeaderType space bus device 0) then .ok (.kSuccess, found)
      else forEach .kSuccess (fun function found =>
        if readVendorId space bus device function = 0xffff then .ok (.kSuccess, found)
        else scanFunction space scanBus bus device function found) (uint8Range 1 8) found)
      ((if isMultiFunction space bus device then
        ((uint8Range 1 8).filter (hasVendor space bus device)).map (entry space bus device)
      else []).flatMap (withBus space sub)) := by
    rw [readHeaderType_eq space bus hdevice (by decide), isMultiFunction]
    cases isSingleFunctionDevice ((register space bus device 0 3).extractLsb' 16 8) with
    | true => exact appends_nil
    | false =>
        have hloop : Appends .kSuccess .kFull m (forEach .kSuccess (fun function (found : Found) =>
            if readVendorId space bus device function = 0xffff then .ok (.kSuccess, found)
            else scanFunction space scanBus bus device function found) (uint8Range 1 8))
            ((uint8Range 1 8).flatMap fun function => if hasVendor space bus device function then
              withBus space sub (entry space bus device function) else []) := by
          refine forEach_appends (by decide) fun function hmem => ?_
          have hfunction := ((mem_uint8Range (by decide)).mp hmem).2
          rw [readVendorId_eq space bus hdevice hfunction, hasVendor]
          by_cases hvendor : (register space bus device function 0).extractLsb' 0 16 = 0xffff
          · simp only [hvendor, if_true]
            exact appends_nil
          · simp only [hvendor, if_false, bne_iff_ne, ne_eq, not_false_eq_true, if_true]
            exact scanFunction_appends space hsub bus hdevice hfunction
        rw [← flatMap_filter (hasVendor space bus device)] at hloop
        rw [← List.flatMap_map] at hloop
        exact hloop
  have hfirst := scanFunction_appends space hsub bus hdevice
    (by decide : (0 : BitVec 8).toNat < 8)
  unfold functionsOfDevice
  rw [List.flatMap_cons]
  exact hfirst.andThen (by decide) (hrest.mono (Nat.le_add_right m _))

/-- **`ScanBus` appends the listing of its bus**, down to as many levels as there are
nested calls; it is called with a table that has as many entries as calls were made
before it. -/
theorem scanBusTo_appends (space : ConfigSpace) (n : Nat) : ∀ bus,
    Appends .kSuccess .kFull (33 - n) (scanBusTo space n bus)
      (listing (functionsOf space) (secondaryBus space) n bus) := by
  induction n with
  | zero =>
      intro bus found hm
      have hbound := found.bound
      omega
  | succ n ih =>
      intro bus
      have hsub : ∀ bus, Appends .kSuccess .kFull (33 - (n + 1) + 1) (scanBusTo space n bus)
          (listing (functionsOf space) (secondaryBus space) n bus) :=
        fun bus => (ih bus).mono (by omega)
      have hloop : Appends .kSuccess .kFull (33 - (n + 1)) (forEach .kSuccess
          (fun device (found : Found) =>
            if readVendorId space bus device 0 = 0xffff then .ok (.kSuccess, found)
            else scanDevice space (scanBusTo space n) bus device found) (uint8Range 0 32))
          ((uint8Range 0 32).flatMap fun device => if hasVendor space bus device 0 then
            (functionsOfDevice space bus device).flatMap
              (withBus space (listing (functionsOf space) (secondaryBus space) n)) else []) := by
        refine forEach_appends (by decide) fun device hmem => ?_
        have hdevice := ((mem_uint8Range (by decide)).mp hmem).2
        rw [readVendorId_eq space bus hdevice (by decide), hasVendor]
        by_cases hvendor : (register space bus device 0 0).extractLsb' 0 16 = 0xffff
        · simp only [hvendor, if_true]
          exact appends_nil
        · simp only [hvendor, if_false, bne_iff_ne, ne_eq, not_false_eq_true, if_true]
          exact scanDevice_appends space hsub bus hdevice
      rw [← flatMap_filter (fun device => hasVendor space bus device 0)] at hloop
      rw [← List.flatMap_assoc] at hloop
      rw [listing_functions]
      exact hloop

end Appends

/-! ## The whole listing -/

/-- Function `function` of a device is there: function 0 if it has a vendor, and the
others if function 0 is there, is marked as one of several, and they have a vendor. -/
def Present (space : ConfigSpace) (bus device function : BitVec 8) : Prop :=
  hasVendor space bus device 0 = true ∧
    (function ≠ 0 → isMultiFunction space bus device = true ∧
      hasVendor space bus device function = true)

/-- The functions listed for a device: function 0, and those of the others that have a vendor if
the device says that it has several. -/
theorem mem_functionsOfDevice {space : ConfigSpace} {bus device : BitVec 8} {d : Device} :
    d ∈ functionsOfDevice space bus device ↔
      ∃ function : BitVec 8, function.toNat < 8 ∧
        (function ≠ 0 → isMultiFunction space bus device = true ∧
          hasVendor space bus device function = true) ∧ d = entry space bus device function := by
  unfold functionsOfDevice
  rw [List.mem_cons]
  constructor
  · rintro (rfl | hd)
    · exact ⟨0, by decide, fun hne => absurd rfl hne, rfl⟩
    · split at hd
      · rename_i hmulti
        obtain ⟨function, hmem, rfl⟩ := List.mem_map.mp hd
        obtain ⟨hrange, hvendor⟩ := List.mem_filter.mp hmem
        exact ⟨function, ((mem_uint8Range (by decide)).mp hrange).2,
          fun _ => ⟨hmulti, hvendor⟩, rfl⟩
      · cases hd
  · rintro ⟨function, hlt, hother, rfl⟩
    by_cases hzero : function = 0
    · exact Or.inl (by rw [hzero])
    · obtain ⟨hmulti, hvendor⟩ := hother hzero
      right
      rw [if_pos hmulti]
      refine List.mem_map_of_mem (List.mem_filter.mpr ⟨?_, hvendor⟩)
      have hpos : function.toNat ≠ 0 := fun h => hzero (BitVec.eq_of_toNat_eq h)
      exact (mem_uint8Range (by decide)).mpr ⟨by omega, hlt⟩

/-- **The functions listed for a bus** are those that are there, and each is listed with its
coordinates, header type and class code. -/
theorem mem_functionsOf {space : ConfigSpace} {bus : BitVec 8} {d : Device} :
    d ∈ functionsOf space bus ↔
      ∃ device function : BitVec 8, device.toNat < 32 ∧ function.toNat < 8 ∧
        Present space bus device function ∧ d = entry space bus device function := by
  unfold functionsOf
  rw [List.mem_flatMap]
  constructor
  · rintro ⟨device, hmem, hd⟩
    obtain ⟨hrange, hvendor⟩ := List.mem_filter.mp hmem
    obtain ⟨function, hlt, hother, rfl⟩ := mem_functionsOfDevice.mp hd
    exact ⟨device, function, ((mem_uint8Range (by decide)).mp hrange).2, hlt,
      ⟨hvendor, hother⟩, rfl⟩
  · rintro ⟨device, function, hdevice, hlt, ⟨hvendor, hother⟩, rfl⟩
    refine ⟨device, List.mem_filter.mpr ⟨?_, hvendor⟩,
      mem_functionsOfDevice.mpr ⟨function, hlt, hother, rfl⟩⟩
    exact (mem_uint8Range (by decide)).mpr ⟨Nat.zero_le _, hdevice⟩

/-- The bus of a function. -/
theorem bus_of_mem (space : ConfigSpace) : ∀ bus, ∀ d ∈ functionsOf space bus, d.bus = bus := by
  intro bus d hd
  obtain ⟨device, function, -, -, -, rfl⟩ := mem_functionsOf.mp hd
  rfl

/-- A loop counter of eight bits takes no value twice, as long as the end is at most 256. -/
theorem nodup_uint8Range {start stop : Nat} (hstop : stop ≤ 256) :
    (uint8Range start stop).Nodup := by
  unfold uint8Range
  refine List.Nodup.map_on ?_ List.nodup_range'
  intro i hi j hj heq
  rw [List.mem_range'_1] at hi hj
  have htoNat := congrArg BitVec.toNat heq
  rw [BitVec.toNat_ofNat, BitVec.toNat_ofNat, Nat.mod_eq_of_lt (by omega),
    Nat.mod_eq_of_lt (by omega)] at htoNat
  exact htoNat

/-- No function of a bus is listed twice: two functions listed for it differ in the device or in
the function number. -/
theorem nodup_functionsOf (space : ConfigSpace) (bus : BitVec 8) :
    (functionsOf space bus).Nodup := by
  have hinjective : ∀ device, Function.Injective (entry space bus device) :=
    fun device f f' heq => congrArg Device.function heq
  unfold functionsOf
  rw [List.nodup_flatMap]
  constructor
  · intro device _
    unfold functionsOfDevice
    refine List.nodup_cons.mpr ⟨fun hmem => ?_, ?_⟩
    · split at hmem
      · obtain ⟨function, hfunction, heq⟩ := List.mem_map.mp hmem
        obtain rfl := hinjective device heq
        have hrange := (mem_uint8Range (by decide)).mp (List.mem_filter.mp hfunction).1
        exact absurd hrange.1 (by decide)
      · cases hmem
    · split
      · exact ((nodup_uint8Range (by decide)).filter _).map (hinjective device)
      · exact List.nodup_nil
  · refine ((nodup_uint8Range (by decide)).filter _).imp fun {device device'} hne => ?_
    intro d hd hd'
    obtain ⟨function, -, -, rfl⟩ := mem_functionsOfDevice.mp hd
    obtain ⟨function', -, -, heq⟩ := mem_functionsOfDevice.mp hd'
    exact hne (congrArg Device.device heq)

/-- There are 256 buses. -/
theorem card_buses : Fintype.card (BitVec 8) = 256 :=
  FinEnum.card_eq_fintypeCard.symm.trans (FinEnum.card_bitVec 8)

/-- What a scan from bus `bus` is to find. -/
def preorderOf (space : ConfigSpace) (bus : BitVec 8) : List Device :=
  preorder (functionsOf space) (secondaryBus space) bus

/-- **Every call of `ScanBus` returns**, with the listing appended as far as there is
room. -/
theorem scanBus_eq (space : ConfigSpace) (bus : BitVec 8) (found : Found) :
    scanBus space bus found =
      .ok (if found.Fits (preorderOf space bus) then .kSuccess else .kFull,
        found.fill (preorderOf space bus)) := by
  have happends := scanBusTo_appends space 256 bus found (Nat.zero_le _)
  rw [preorderOf, preorder, card_buses]
  exact happends

/-- **The bus scan is exact** on a tree of buses: it appends the functions that are
there on the buses of the tree, each once, a function before those behind it, and if
there is no room for all of them, then the first ones. -/
theorem scanBus_exact {space : ConfigSpace} {bus : BitVec 8}
    (htree : IsTree (functionsOf space) (secondaryBus space) bus) (found : Found) :
    scanBus space bus found =
      .ok (if found.entries.length + (preorderOf space bus).length ≤ 32 then .kSuccess else .kFull,
        ⟨(found.entries ++ preorderOf space bus).take 32, List.length_take_le 32 _⟩) ∧
    (preorderOf space bus).Nodup ∧
    (∀ d, d ∈ preorderOf space bus ↔ ∃ bus' device function : BitVec 8,
      Reachable (functionsOf space) (secondaryBus space) bus bus' ∧ device.toNat < 32 ∧
      function.toNat < 8 ∧ Present space bus' device function ∧
      d = entry space bus' device function) ∧
    ∀ bus', Reachable (functionsOf space) (secondaryBus space) bus bus' →
      preorderOf space bus' =
        (functionsOf space bus').flatMap (withBus space (preorderOf space)) := by
  refine ⟨scanBus_eq space bus found, ?_, fun d => ?_, fun bus' hbus' => ?_⟩
  · exact nodup_preorder (bus_of_mem space) htree (nodup_functionsOf space)
  · rw [preorderOf, mem_preorder (bus_of_mem space) htree]
    constructor
    · rintro ⟨bus', hreachable, hd⟩
      obtain ⟨device, function, hd⟩ := mem_functionsOf.mp hd
      exact ⟨bus', device, function, hreachable, hd⟩
    · rintro ⟨bus', device, function, hreachable, hd⟩
      exact ⟨bus', hreachable, mem_functionsOf.mpr ⟨device, function, hd⟩⟩
  · rw [preorderOf, preorder_eq (bus_of_mem space) htree hbus']
    refine List.flatMap_congr fun d _ => ?_
    rw [withBus]
    cases secondaryBus space d with
    | none => rfl
    | some behind => rfl

/-- A host bridge, a PCI-PCI bridge to bus 1 and an xHC behind it. -/
def sampleSpace : ConfigSpace := fun bus device function reg =>
  if function = 0 ∧ bus = 0 ∧ device = 0 then
    if reg = 0 then 0x12378086 else if reg = 2 then 0x06000002 else 0
  else if function = 0 ∧ bus = 0 ∧ device = 1 then
    if reg = 0 then 0x244e8086 else if reg = 2 then 0x06040101 else if reg = 3 then 0x00010000
    else if reg = 6 then 0x00010100 else 0
  else if function = 0 ∧ bus = 1 ∧ device = 0 then
    if reg = 0 then 0x31a88086 else if reg = 2 then 0x0c033003 else 0
  else BitVec.allOnes 32

/-- The buses 0 and 1 of the sample configuration form a tree: the bridge on bus 0 is the one
way to bus 1. -/
theorem sampleSpace_tree : IsTree (functionsOf sampleSpace) (secondaryBus sampleSpace) 0 := by
  have hzero : functionsOf sampleSpace 0 =
      [entry sampleSpace 0 0 0, entry sampleSpace 0 1 0] := by decide +kernel
  have hone : functionsOf sampleSpace 1 = [entry sampleSpace 1 0 0] := by decide +kernel
  have hleads : ∀ {bus bus' : BitVec 8} {d : Device}, bus = 0 ∨ bus = 1 →
      d ∈ functionsOf sampleSpace bus → secondaryBus sampleSpace d = some bus' →
        d = entry sampleSpace 0 1 0 ∧ bus' = 1 := by
    rintro bus bus' d (rfl | rfl) hd hbus'
    · rw [hzero] at hd
      rcases List.mem_cons.mp hd with rfl | hd
      · exact absurd hbus' (by decide +revert)
      · obtain rfl := List.mem_singleton.mp hd
        exact ⟨rfl, by revert hbus'; decide +revert⟩
    · rw [hone] at hd
      obtain rfl := List.mem_singleton.mp hd
      exact absurd hbus' (by decide +revert)
  have hreachable : ∀ {bus}, Reachable (functionsOf sampleSpace) (secondaryBus sampleSpace) 0 bus →
      bus = 0 ∨ bus = 1 := by
    rintro bus ⟨n, hbelow⟩
    induction hbelow with
    | refl => exact Or.inl rfl
    | step _ hd hbus' ih => exact Or.inr (hleads ih hd hbus').2
  constructor
  · intro bus bus₁ bus' d d₁ hbus hbus₁ hd hd₁ hleads₁ hleads₂
    exact (hleads (hreachable hbus) hd hleads₁).1.trans
      (hleads (hreachable hbus₁) hd₁ hleads₂).1.symm
  · intro bus d hbus hd hroot
    exact absurd (hleads (hreachable hbus) hd hroot).2 (by decide)

/-- The scan of the sample configuration finds its three functions in preorder, the xHC behind
the bridge last. -/
theorem scanBus_exact_sample : scanBus sampleSpace 0 Table.empty =
    .ok (.kSuccess, ⟨[entry sampleSpace 0 0 0, entry sampleSpace 0 1 0, entry sampleSpace 1 0 0],
      by decide⟩) := by
  have hlist : preorderOf sampleSpace 0 =
      [entry sampleSpace 0 0 0, entry sampleSpace 0 1 0, entry sampleSpace 1 0 0] := by
    rw [preorderOf, preorder, card_buses]
    decide +kernel
  obtain ⟨hscan, -⟩ := scanBus_exact sampleSpace_tree Table.empty
  simp only [hlist] at hscan
  exact hscan

end Mikanos.Pci
