import Mikanos.Pci.HostBridges

/-!
# How deep the scan goes

The scan follows the bus numbers that bridges give, and nothing keeps a bridge from naming a
bus that is being scanned.  What ends it is the table: `ScanFunction` adds an entry before it
goes on to the bus behind a bridge, so each call that is nested in another one starts with a
longer table (`length_lt_of_calls`), and there are 33 nested calls at most.

`calls` lists the calls of `ScanFunction` that one such call makes through `ScanBus` and
`ScanDevice`; a chain of these calls is what stands on the stack.
-/

namespace Mikanos.Pci

open BoundedTable RootedTree

/-! ## Nested calls -/

/-- A call of `ScanFunction`: its arguments, and the table as it finds it. -/
structure Activation where
  bus : BitVec 8
  device : BitVec 8
  function : BitVec 8
  found : Found

/-- One round of the loop in `ScanDevice`. -/
def functionRound (space : ConfigSpace) (bus device function : BitVec 8) (found : Found) :
    Except Fault (Error × Found) :=
  if readVendorId space bus device function = 0xffff then .ok (.kSuccess, found)
  else scanFunction space (scanBus space) bus device function found

/-- One round of the loop in `ScanBus`. -/
def deviceRound (space : ConfigSpace) (bus device : BitVec 8) (found : Found) :
    Except Fault (Error × Found) :=
  if readVendorId space bus device 0 = 0xffff then .ok (.kSuccess, found)
  else scanDevice space (scanBus space) bus device found

/-- The calls of `ScanFunction` in `ScanDevice(bus, device)`. -/
def scanDeviceCalls (space : ConfigSpace) (bus device : BitVec 8) (found : Found) :
    List Activation :=
  ⟨bus, device, 0, found⟩ ::
    match scanFunction space (scanBus space) bus device 0 found with
    | .error _ => []
    | .ok (err, found) =>
        if err ≠ .kSuccess ∨ isSingleFunctionDevice (readHeaderType space bus device 0) then []
        else ((started .kSuccess (functionRound space bus device) (uint8Range 1 8) found).filter
          fun c => readVendorId space bus device c.1 ≠ 0xffff).map
            fun c => ⟨bus, device, c.1, c.2⟩

/-- The calls of `ScanFunction` in `ScanBus(bus)`. -/
def scanBusCalls (space : ConfigSpace) (bus : BitVec 8) (found : Found) : List Activation :=
  ((started .kSuccess (deviceRound space bus) (uint8Range 0 32) found).filter
    fun c => readVendorId space bus c.1 0 ≠ 0xffff).flatMap
      fun c => scanDeviceCalls space bus c.1 c.2

/-- The calls of `ScanFunction` in `ScanFunction(bus, device, function)`. -/
def calls (space : ConfigSpace) (a : Activation) : List Activation :=
  let headerType := readHeaderType space a.bus a.device a.function
  let classCode := readClassCode space a.bus a.device a.function
  let result := addDevice ⟨a.bus, a.device, a.function, headerType, classCode⟩ a.found
  if result.1 ≠ .kSuccess then []
  else if classCode.matches 0x06 0x04 then
    let busNumbers := readBusNumbers space a.bus a.device a.function
    scanBusCalls space (((busNumbers >>> 8) &&& 0xff).setWidth 8) result.2
  else []

/-- Calls of `ScanFunction`, each made by the one before it: what can be on the stack. -/
def Nest (space : ConfigSpace) (nest : List Activation) : Prop :=
  nest.IsChain fun a b => b ∈ calls space a

/-! ## The table only grows -/

/-- `num_device`. -/
def numDevice (found : Found) : Nat := found.entries.length

/-- Filling a table does not shorten it. -/
theorem numDevice_le_fill (found : Found) (ds : List Device) :
    numDevice found ≤ numDevice (found.fill ds) := by
  have hbound := found.bound
  rw [numDevice, numDevice, Table.entries_fill, List.length_take, List.length_append]
  omega

/-- The table of devices never shrinks during a scan.  The bound on the nesting counts with
that: each activation of `ScanBus` has one entry more in front of it. -/
theorem scanBus_raises (space : ConfigSpace) (bus : BitVec 8) :
    Raises numDevice (scanBus space bus) := by
  intro found r hr
  obtain rfl := Except.ok.inj ((scanBus_eq space bus found).symm.trans hr)
  exact numDevice_le_fill found _

/-- `AddDevice` adds one entry, unless it fails. -/
theorem addDevice_length (d : Device) (found : Found) :
    numDevice found ≤ numDevice (addDevice d found).2 ∧
      ((addDevice d found).1 = .kSuccess →
        numDevice (addDevice d found).2 = numDevice found + 1) := by
  unfold addDevice numDevice
  split
  · exact ⟨Nat.le_refl _, fun h => by cases h⟩
  · constructor
    · exact (List.length_append ▸ Nat.le_add_right _ _)
    · exact fun _ => List.length_append

/-- `ScanFunction` does not shorten the table: it adds its device, and for a bridge the scan
behind it adds what it finds. -/
theorem scanFunction_raises (space : ConfigSpace) (bus device function : BitVec 8) :
    Raises numDevice (scanFunction space (scanBus space) bus device function) := by
  intro found r hr
  unfold scanFunction at hr
  have hadd := (addDevice_length ⟨bus, device, function, readHeaderType space bus device function,
    readClassCode space bus device function⟩ found).1
  dsimp only at hr
  split at hr
  · cases hr
    exact hadd
  · split at hr
    · exact hadd.trans (scanBus_raises space _ _ _ hr)
    · cases hr
      exact hadd

/-- One round of the loop over the functions of a device. -/
theorem functionRound_raises (space : ConfigSpace) (bus device function : BitVec 8) :
    Raises numDevice (functionRound space bus device function) := by
  intro found r hr
  unfold functionRound at hr
  split at hr
  · cases hr
    exact Nat.le_refl _
  · exact scanFunction_raises space bus device function found r hr

/-- The loop over the functions of a device, and so `ScanDevice`, does not shorten the table. -/
theorem scanDevice_raises (space : ConfigSpace) (bus device : BitVec 8) :
    Raises numDevice (scanDevice space (scanBus space) bus device) := by
  intro found r hr
  obtain ⟨first, hfirst, hr⟩ := bind_eq_ok.mp hr
  have hadd := scanFunction_raises space bus device 0 found first hfirst
  split at hr
  · cases hr
    exact hadd
  · split at hr
    · cases hr
      exact hadd
    · have hloop : Raises numDevice
          (forEach .kSuccess (functionRound space bus device) (uint8Range 1 8)) :=
        Raises.forEach fun function _ => functionRound_raises space bus device function
      exact hadd.trans (hloop _ _ hr)

/-- One round of the loop over the devices of a bus. -/
theorem deviceRound_raises (space : ConfigSpace) (bus device : BitVec 8) :
    Raises numDevice (deviceRound space bus device) := by
  intro found r hr
  unfold deviceRound at hr
  split at hr
  · cases hr
    exact Nat.le_refl _
  · exact scanDevice_raises space bus device found r hr

/-- Whatever bus `ScanDevice` scans, it has as many devices in the table by then as at its own
start. -/
theorem numDevice_le_of_scanDeviceCalls {space : ConfigSpace} {bus device : BitVec 8}
    {found : Found} {a : Activation} (ha : a ∈ scanDeviceCalls space bus device found) :
    numDevice found ≤ numDevice a.found := by
  rcases List.mem_cons.mp ha with rfl | ha
  · exact Nat.le_refl _
  cases hfirst : scanFunction space (scanBus space) bus device 0 found with
  | error e =>
      rw [hfirst] at ha
      cases ha
  | ok first =>
      rw [hfirst] at ha
      have hadd := scanFunction_raises space bus device 0 found first hfirst
      dsimp only at ha
      split at ha
      · cases ha
      · obtain ⟨c, hc, rfl⟩ := List.mem_map.mp ha
        have hstarted := le_of_mem_started
          (fun function _ => functionRound_raises space bus device function)
          (List.mem_filter.mp hc).1
        exact hadd.trans hstarted.2

/-- A bus that `ScanBus` scans directly below itself starts with a table at least as long as the
one it got. -/
theorem numDevice_le_of_scanBusCalls {space : ConfigSpace} {bus : BitVec 8} {found : Found}
    {a : Activation} (ha : a ∈ scanBusCalls space bus found) :
    numDevice found ≤ numDevice a.found := by
  obtain ⟨c, hc, ha⟩ := List.mem_flatMap.mp ha
  have hstarted := le_of_mem_started (fun device _ => deviceRound_raises space bus device)
    (List.mem_filter.mp hc).1
  exact hstarted.2.trans (numDevice_le_of_scanDeviceCalls ha)

/-- **A nested call starts with a longer table**: between two activations of `ScanBus` lies an
`AddDevice` that has succeeded, so the table bounds the nesting. -/
theorem length_lt_of_calls {space : ConfigSpace} {a b : Activation} (h : b ∈ calls space a) :
    numDevice a.found < numDevice b.found := by
  unfold calls at h
  dsimp only at h
  split at h
  · cases h
  · rename_i hok
    have hadd := (addDevice_length ⟨a.bus, a.device, a.function,
      readHeaderType space a.bus a.device a.function,
      readClassCode space a.bus a.device a.function⟩ a.found).2 (not_not.mp hok)
    split at h
    · have hnested := numDevice_le_of_scanBusCalls h
      omega
    · cases h

/-- **What stands on the stack is short**: with the entries that were there before, at most
33 calls. -/
theorem nest_length_le {space : ConfigSpace} {nest : List Activation} :
    ∀ {a : Activation}, Nest space (a :: nest) → numDevice a.found + (a :: nest).length ≤ 33 := by
  induction nest with
  | nil =>
      intro a _
      exact Nat.succ_le_succ a.found.bound
  | cons b nest ih =>
      intro a h
      obtain ⟨hcall, hrest⟩ := List.isChain_cons_cons.mp h
      have hlt := length_lt_of_calls hcall
      have hbelow := ih hrest
      rw [List.length_cons]
      omega

/-! ## The scan ends -/

/-- `ScanAllBus()`, with at most `n` nested calls. -/
def scanAllBusTo (space : ConfigSpace) (n : Nat) : Except Fault (Error × Found) :=
  let headerType := readHeaderType space 0 0 0
  if isSingleFunctionDevice headerType then scanBusTo space n 0 Table.empty
  else forEach .kSuccess (fun function found =>
    if readVendorId space 0 0 function = 0xffff then .ok (.kSuccess, found)
    else scanBusTo space n function found) (uint8Range 1 8) Table.empty

/-- `ScanAllBus` of the model is the version with its 256 buses as fuel. -/
theorem scanAllBus_eq_to (space : ConfigSpace) : scanAllBus space = scanAllBusTo space 256 := rfl

section Deeper

variable {space : ConfigSpace} {scanBus scanBus' : BitVec 8 → Found → Except Fault (Error × Found)}

/-- More fuel never changes a result that is there: where the scan of every bus is extended, the
scan of a function is. -/
theorem scanFunction_extends (h : ∀ bus, Extends (scanBus' bus) (scanBus bus))
    (bus device function : BitVec 8) :
    Extends (scanFunction space scanBus' bus device function)
      (scanFunction space scanBus bus device function) := by
  intro found r hr
  unfold scanFunction at hr ⊢
  dsimp only at hr ⊢
  split
  · rwa [if_pos ‹_›] at hr
  · rw [if_neg ‹_›] at hr
    split
    · rw [if_pos ‹_›] at hr
      exact h _ _ _ hr
    · rwa [if_neg ‹_›] at hr

/-- The loop over the functions of a device only appends to the table, as long as the scans of
the buses below do. -/
theorem scanDevice_extends (h : ∀ bus, Extends (scanBus' bus) (scanBus bus))
    (bus device : BitVec 8) :
    Extends (scanDevice space scanBus' bus device) (scanDevice space scanBus bus device) := by
  intro found r hr
  obtain ⟨first, hfirst, hr⟩ := bind_eq_ok.mp hr
  refine bind_eq_ok.mpr ⟨first, scanFunction_extends h bus device 0 found first hfirst, ?_⟩
  by_cases herr : first.1 ≠ .kSuccess
  · rwa [if_pos herr] at hr ⊢
  rw [if_neg herr] at hr ⊢
  by_cases hsingle : isSingleFunctionDevice (readHeaderType space bus device 0) = true
  · rwa [if_pos hsingle] at hr ⊢
  rw [if_neg hsingle] at hr ⊢
  refine Extends.forEach (fun function found r hr => ?_) _ _ _ hr
  split
  · rwa [if_pos ‹_›] at hr
  · rw [if_neg ‹_›] at hr
    exact scanFunction_extends h bus device function found r hr

end Deeper

/-- **One level more** of recursion.  By induction over the fuel, since a scan with the new
bound recurses with the old one. -/
theorem scanBusTo_succ (space : ConfigSpace) (n : Nat) :
    ∀ bus, Extends (scanBusTo space (n + 1) bus) (scanBusTo space n bus) := by
  induction n with
  | zero => intro bus found r hr; cases hr
  | succ n ih =>
      intro bus found r hr
      refine Extends.forEach (fun device found r hr => ?_) _ _ _ hr
      split
      · rwa [if_pos ‹_›] at hr
      · rw [if_neg ‹_›] at hr
        exact scanDevice_extends ih bus device found r hr

/-- Any number of levels more. -/
theorem scanBusTo_extends (space : ConfigSpace) {n n' : Nat} (h : n ≤ n') (bus : BitVec 8) :
    Extends (scanBusTo space n' bus) (scanBusTo space n bus) := by
  induction h with
  | refl => exact fun _ _ hr => hr
  | step _ ih => exact fun found r hr => scanBusTo_succ space _ bus found r (ih found r hr)

/-- **33 nested calls are enough.** -/
theorem scanBusTo_eq_scanBus (space : ConfigSpace) {n : Nat} (h : 33 ≤ n) :
    scanBusTo space n = scanBus space := by
  funext bus found
  have hends := scanBusTo_appends space 33 bus found (Nat.zero_le _)
  have hn := scanBusTo_extends space h bus found _ hends
  have hall := scanBusTo_extends space (by decide : 33 ≤ 256) bus found _ hends
  exact hn.trans hall.symm

/-- **33 levels are enough**: with more of them `ScanAllBus` does the same on every
configuration space. -/
theorem scanAllBusTo_eq (space : ConfigSpace) {n : Nat} (h : 33 ≤ n) :
    scanAllBusTo space n = scanAllBus space := by
  rw [scanAllBusTo, scanBusTo_eq_scanBus space h]
  rfl

/-! ## What is listed -/

/-- An entry is of a function that is there, and holds what is read from it. -/
structure Stored (space : ConfigSpace) (d : Device) : Prop where
  vendor : readVendorId space d.bus d.device d.function ≠ 0xffff
  headerType : d.headerType = readHeaderType space d.bus d.device d.function
  classCode : d.classCode = readClassCode space d.bus d.device d.function

/-- The entries that a scan finds on a bus are stored as they are read from the configuration
space. -/
theorem stored_of_mem_functionsOf {space : ConfigSpace} {bus : BitVec 8} {d : Device}
    (h : d ∈ functionsOf space bus) : Stored space d := by
  obtain ⟨device, function, hdevice, hfunction, ⟨hzero, hother⟩, rfl⟩ := mem_functionsOf.mp h
  have hvendor : hasVendor space bus device function = true := by
    by_cases hf : function = 0
    · rwa [hf]
    · exact (hother hf).2
  constructor
  · change readVendorId space bus device function ≠ 0xffff
    rw [readVendorId_eq space bus hdevice hfunction]
    simpa [hasVendor] using hvendor
  · exact (readHeaderType_eq space bus hdevice hfunction).symm
  · exact (readClassCode_eq space bus hdevice hfunction).symm

/-- Whatever the bridges say, only functions that are there are listed. -/
theorem stored_of_mem_preorderOf {space : ConfigSpace} {bus : BitVec 8} {d : Device}
    (h : d ∈ preorderOf space bus) : Stored space d := by
  obtain ⟨_, bus', _, _, hd⟩ := mem_listing.mp h
  exact stored_of_mem_functionsOf hd

/-- **The enumeration ends**, for every configuration space: no bound on the nested calls
from 33 on makes a difference, nothing deeper can be on the stack, and the table holds what
was read. -/
theorem scanAllBus_ends (space : ConfigSpace) :
    ∃ err found, scanAllBus space = .ok (err, found) ∧
      (∀ n, 33 ≤ n → scanAllBusTo space n = .ok (err, found)) ∧
      (∀ nest, Nest space nest → nest.length ≤ 33) ∧
      numDevice found ≤ 32 ∧ ∀ d ∈ found.entries, Stored space d := by
  refine ⟨_, _, scanAllBus_eq space, ?_, ?_, Table.bound _, ?_⟩
  · intro n hn
    rw [scanAllBusTo_eq space hn, scanAllBus_eq]
  · intro nest hnest
    cases nest with
    | nil => exact Nat.zero_le _
    | cons a nest => exact (Nat.le_add_left _ _).trans (nest_length_le hnest)
  · intro d hd
    obtain ⟨bus, _, hlisted⟩ := List.mem_flatMap.mp (List.mem_of_mem_take hd)
    exact stored_of_mem_preorderOf hlisted

end Mikanos.Pci
