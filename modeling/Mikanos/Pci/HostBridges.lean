import Mikanos.Pci.Scan

/-!
# Host bridges

Device 0 of bus 0 is the host bridge.  If it is marked as one of several functions,
then each of them is a host bridge: function 0 serves bus 0, function `f` serves bus
`f`.  `ScanAllBus` then starts with function 1, so bus 0 is left out.
-/

namespace Mikanos.Pci

open BoundedTable RootedTree

/-- `ScanAllBus()`. -/
def scanAllBus (space : ConfigSpace) : Except Fault (Error × Found) :=
  let headerType := readHeaderType space 0 0 0
  if isSingleFunctionDevice headerType then scanBus space 0 Table.empty
  else forEach .kSuccess (fun function found =>
    if readVendorId space 0 0 function = 0xffff then .ok (.kSuccess, found)
    else scanBus space function found) (uint8Range 1 8) Table.empty

/-- The functions of the host bridge other than function 0 that are there. -/
def otherHostBridges (space : ConfigSpace) : List (BitVec 8) :=
  (uint8Range 1 8).filter (hasVendor space 0 0)

/-- The buses that the host bridges serve. -/
def hostBuses (space : ConfigSpace) : List (BitVec 8) :=
  0 :: if isMultiFunction space 0 0 then otherHostBridges space else []

/-- Bus `bus` is behind bus `root`, or the same. -/
abbrev BehindBus (space : ConfigSpace) (root bus : BitVec 8) : Prop :=
  Reachable (functionsOf space) (secondaryBus space) root bus

/-- The buses behind each host bridge form a tree, no bus is behind two of them, and
there are 32 functions at most. -/
structure HostBridgeTrees (space : ConfigSpace) : Prop where
  tree : ∀ root ∈ hostBuses space, IsTree (functionsOf space) (secondaryBus space) root
  shared : ∀ root ∈ hostBuses space, ∀ root' ∈ hostBuses space, ∀ bus,
    BehindBus space root bus → BehindBus space root' bus → root = root'
  room : ((hostBuses space).flatMap (preorderOf space)).length ≤ 32

/-- The table holds every function behind a host bridge once, and nothing else. -/
def Covers (space : ConfigSpace) (found : Found) : Prop :=
  found.entries.Nodup ∧
    ∀ d, d ∈ found.entries ↔ ∃ root ∈ hostBuses space, ∃ bus,
      BehindBus space root bus ∧ d ∈ functionsOf space bus

section Lists

variable {space : ConfigSpace} {roots : List (BitVec 8)}

/-- The listings of several host bridges, one after the other. -/
theorem mem_listings (htree : ∀ root ∈ roots, IsTree (functionsOf space) (secondaryBus space) root)
    {d : Device} : d ∈ roots.flatMap (preorderOf space) ↔
      ∃ root ∈ roots, ∃ bus, BehindBus space root bus ∧ d ∈ functionsOf space bus := by
  rw [List.mem_flatMap]
  constructor
  · rintro ⟨root, hroot, hd⟩
    exact ⟨root, hroot, (mem_preorder (bus_of_mem space) (htree root hroot)).mp hd⟩
  · rintro ⟨root, hroot, hd⟩
    exact ⟨root, hroot, (mem_preorder (bus_of_mem space) (htree root hroot)).mpr hd⟩

/-- No device is listed twice if every root has a tree, no two trees share a bus and no root is
scanned twice. -/
theorem nodup_listings
    (htree : ∀ root ∈ roots, IsTree (functionsOf space) (secondaryBus space) root)
    (hshared : ∀ root ∈ roots, ∀ root' ∈ roots, ∀ bus,
      BehindBus space root bus → BehindBus space root' bus → root = root')
    (hroots : roots.Nodup) : (roots.flatMap (preorderOf space)).Nodup := by
  rw [List.nodup_flatMap]
  constructor
  · intro root hroot
    exact nodup_preorder (bus_of_mem space) (htree root hroot) (nodup_functionsOf space)
  · refine hroots.imp_of_mem fun {root root'} hroot hroot' hne => ?_
    intro d hd hd'
    obtain ⟨bus, hbus, hmem⟩ := (mem_preorder (bus_of_mem space) (htree root hroot)).mp hd
    obtain ⟨bus', hbus', hmem'⟩ := (mem_preorder (bus_of_mem space) (htree root' hroot')).mp hd'
    obtain rfl := (bus_of_mem space bus d hmem).symm.trans (bus_of_mem space bus' d hmem')
    exact hne (hshared root hroot root' hroot' bus hbus hbus')

/-- The other host bridges are at the functions from 1 on. -/
theorem mem_otherHostBridges {function : BitVec 8} (h : function ∈ otherHostBridges space) :
    function ≠ 0 := by
  rintro rfl
  have hrange := (mem_uint8Range (by decide)).mp (List.mem_filter.mp h).1
  exact absurd hrange.1 (by decide)

/-- Each host bridge has a bus of its own, the number of its function, so no bus is named twice.
-/
theorem nodup_hostBuses : (hostBuses space).Nodup := by
  unfold hostBuses
  refine List.nodup_cons.mpr ⟨fun hmem => ?_, ?_⟩
  · split at hmem
    · exact mem_otherHostBridges hmem rfl
    · cases hmem
  · split
    · exact (nodup_uint8Range (by decide)).filter _
    · exact List.nodup_nil

end Lists

/-! ## The scan of all buses -/

/-- The buses that are scanned. -/
def scannedBuses (space : ConfigSpace) : List (BitVec 8) :=
  if isMultiFunction space 0 0 then otherHostBridges space else [0]

/-- `ScanBus` appends the tree of its bus to the table, in preorder, as far as there is room. -/
theorem scanBus_appends (space : ConfigSpace) (bus : BitVec 8) :
    Appends .kSuccess .kFull 0 (scanBus space bus) (preorderOf space bus) :=
  fun found _ => scanBus_eq space bus found

/-- `ScanAllBus` lists what is on the buses that are scanned, one bus after the other, up to the
size of the table, and reports if it was too small. -/
theorem scanAllBus_eq (space : ConfigSpace) :
    scanAllBus space =
      .ok (if (Table.empty : Found).Fits ((scannedBuses space).flatMap (preorderOf space)) then
          .kSuccess else .kFull,
        Table.empty.fill ((scannedBuses space).flatMap (preorderOf space))) := by
  unfold scanAllBus
  rw [readHeaderType_eq space 0 (by decide) (by decide)]
  dsimp only
  by_cases hsingle : isSingleFunctionDevice ((register space 0 0 0 3).extractLsb' 16 8) = true
  · have hbuses : scannedBuses space = [0] := by
      rw [scannedBuses, isMultiFunction, hsingle]
      rfl
    rw [if_pos hsingle, hbuses, List.flatMap_singleton]
    exact scanBus_eq space 0 Table.empty
  · have hbuses : scannedBuses space = otherHostBridges space := by
      rw [scannedBuses, isMultiFunction, if_pos (by simpa using hsingle)]
    rw [if_neg hsingle, hbuses]
    have hloop : Appends .kSuccess .kFull 0 (forEach .kSuccess (fun function (found : Found) =>
        if readVendorId space 0 0 function = 0xffff then .ok (.kSuccess, found)
        else scanBus space function found) (uint8Range 1 8))
        ((uint8Range 1 8).flatMap fun function => if hasVendor space 0 0 function then
          preorderOf space function else []) := by
      refine forEach_appends (by decide) fun function hmem => ?_
      have hfunction := ((mem_uint8Range (by decide)).mp hmem).2
      rw [readVendorId_eq space 0 (by decide) hfunction, hasVendor]
      by_cases hvendor : (register space 0 0 function 0).extractLsb' 0 16 = 0xffff
      · simp only [hvendor, if_true]
        exact appends_nil
      · simp only [hvendor, if_false, bne_iff_ne, ne_eq, not_false_eq_true, if_true]
        exact scanBus_appends space function
    rw [← flatMap_filter (hasVendor space 0 0)] at hloop
    exact hloop Table.empty (Nat.zero_le _)

/-- Every bus that is scanned is served by a host bridge. -/
theorem scannedBuses_sublist (space : ConfigSpace) :
    (scannedBuses space).Sublist (hostBuses space) := by
  unfold scannedBuses hostBuses
  split
  · exact List.sublist_cons_self _ _
  · exact List.Sublist.refl _

/-- Nothing is behind a bus without functions. -/
theorem behind_empty_bus {space : ConfigSpace} {root bus : BitVec 8}
    (hempty : functionsOf space root = []) (h : BehindBus space root bus) : bus = root := by
  obtain ⟨n, hbelow⟩ := h
  induction hbelow with
  | refl => rfl
  | step _ hd _ ih =>
      rw [ih, hempty] at hd
      cases hd

/-- A bus has a function if and only if function 0 of one of its devices has a vendor, since no
other function is looked for without it. -/
theorem functionsOf_eq_nil_iff {space : ConfigSpace} {bus : BitVec 8} :
    functionsOf space bus = [] ↔
      ∀ device : BitVec 8, device.toNat < 32 → hasVendor space bus device 0 = false := by
  rw [List.eq_nil_iff_forall_not_mem]
  constructor
  · intro h device hdevice
    by_contra hvendor
    have hpresent : Present space bus device 0 :=
      ⟨by simpa using hvendor, fun hne => absurd rfl hne⟩
    exact h _ (mem_functionsOf.mpr ⟨device, 0, hdevice, by decide, hpresent, rfl⟩)
  · intro h d hd
    obtain ⟨device, function, hdevice, -, hpresent, -⟩ := mem_functionsOf.mp hd
    have hvendor := hpresent.1
    rw [h device hdevice] at hvendor
    cases hvendor

/-- **All host bridges are covered** exactly if the host bridge has a single function, or there
is no function on bus 0. The scan always ends, and the table holds the functions behind the
bridges once each where it covers them. -/
theorem scanAllBus_covers_iff {space : ConfigSpace} (h : HostBridgeTrees space) :
    ∃ err found, scanAllBus space = .ok (err, found) ∧
      (Covers space found ↔ isSingleFunctionDevice (readHeaderType space 0 0 0) = true ∨
        ∀ device : BitVec 8, device.toNat < 32 → hasVendor space 0 device 0 = false) := by
  have hsublist := scannedBuses_sublist space
  have hsub := hsublist.subset
  have htree : ∀ root ∈ scannedBuses space, IsTree (functionsOf space) (secondaryBus space) root :=
    fun root hroot => h.tree root (hsub hroot)
  have hfits : (Table.empty : Found).Fits ((scannedBuses space).flatMap (preorderOf space)) := by
    have hlength := (hsublist.flatMap (preorderOf space)).length_le
    exact (Nat.zero_add _).le.trans (hlength.trans h.room)
  refine ⟨_, _, scanAllBus_eq space, ?_⟩
  unfold Covers
  rw [Table.entries_fill_of_fits hfits, ← functionsOf_eq_nil_iff,
    readHeaderType_eq space 0 (by decide) (by decide)]
  change (((scannedBuses space).flatMap (preorderOf space)).Nodup ∧ ∀ d,
    d ∈ (scannedBuses space).flatMap (preorderOf space) ↔ _) ↔ _
  have hnodup : ((scannedBuses space).flatMap (preorderOf space)).Nodup :=
    nodup_listings htree (fun root hroot root' hroot' => h.shared root (hsub hroot) root'
      (hsub hroot')) (nodup_hostBuses.sublist hsublist)
  simp only [mem_listings htree, hnodup, true_and]
  by_cases hsingle : isSingleFunctionDevice ((register space 0 0 0 3).extractLsb' 16 8) = true
  · have hbuses : scannedBuses space = hostBuses space := by
      rw [scannedBuses, hostBuses, isMultiFunction, hsingle]
      rfl
    rw [hbuses]
    exact ⟨fun _ => Or.inl hsingle, fun _ _ => Iff.rfl⟩
  · have hmulti : isMultiFunction space 0 0 = true := by
      rw [isMultiFunction]
      simpa using hsingle
    have hscanned : scannedBuses space = otherHostBridges space := by
      rw [scannedBuses, if_pos hmulti]
    have hhost : hostBuses space = 0 :: otherHostBridges space := by
      rw [hostBuses, if_pos hmulti]
    have hzero : (0 : BitVec 8) ∈ hostBuses space := List.mem_cons_self
    constructor
    · intro hcovers
      right
      refine List.eq_nil_iff_forall_not_mem.mpr fun d hd => ?_
      -- A function on bus 0 would be behind a second host bridge.
      have hself : BehindBus space 0 0 := ⟨0, .refl⟩
      obtain ⟨root, hroot, bus, hbus, hd'⟩ := (hcovers d).mpr ⟨0, hzero, 0, hself, hd⟩
      obtain rfl := (bus_of_mem space 0 d hd).symm.trans (bus_of_mem space bus d hd')
      have hsame := h.shared root (hsub hroot) 0 hzero 0 hbus hself
      rw [hscanned] at hroot
      exact mem_otherHostBridges hroot hsame
    · rintro (hsingle' | hempty) d
      · exact absurd hsingle' hsingle
      · rw [hscanned, hhost]
        constructor
        · rintro ⟨root, hroot, hbus⟩
          exact ⟨root, List.mem_cons_of_mem 0 hroot, hbus⟩
        · rintro ⟨root, hroot, bus, hbus, hd⟩
          rcases List.mem_cons.mp hroot with rfl | hroot
          · obtain rfl := behind_empty_bus hempty hbus
            rw [hempty] at hd
            cases hd
          · exact ⟨root, hroot, bus, hbus, hd⟩

/-- With one host bridge of one function the scan of the sample configuration finds everything
behind it. -/
theorem scanAllBus_covers_iff_sample : ∃ err found, scanAllBus sampleSpace = .ok (err, found) ∧
    Covers sampleSpace found := by
  have hhost : hostBuses sampleSpace = [0] := by decide +kernel
  have hlist : preorderOf sampleSpace 0 =
      [entry sampleSpace 0 0 0, entry sampleSpace 0 1 0, entry sampleSpace 1 0 0] := by
    rw [preorderOf, preorder, card_buses]
    decide +kernel
  have htrees : HostBridgeTrees sampleSpace := by
    constructor
    · intro root hroot
      rw [hhost] at hroot
      obtain rfl := List.mem_singleton.mp hroot
      exact sampleSpace_tree
    · intro root hroot root' hroot' _ _ _
      rw [hhost] at hroot hroot'
      exact (List.mem_singleton.mp hroot).trans (List.mem_singleton.mp hroot').symm
    · rw [hhost, List.flatMap_singleton, hlist]
      decide
  obtain ⟨err, found, hscan, hcovers⟩ := scanAllBus_covers_iff htrees
  exact ⟨err, found, hscan, hcovers.mpr (Or.inl (by decide +kernel))⟩

/-- A host bridge that is marked as one of several functions, and an xHC beside it. -/
def multiFunctionSpace : ConfigSpace := fun bus device function reg =>
  if function = 0 ∧ bus = 0 ∧ device = 0 then
    if reg = 0 then 0x12378086 else if reg = 2 then 0x06000002 else if reg = 3 then 0x00800000
    else 0
  else if function = 0 ∧ bus = 0 ∧ device = 1 then
    if reg = 0 then 0x31a88086 else if reg = 2 then 0x0c033003 else 0
  else BitVec.allOnes 32

/-- **A host bridge with several functions**: nothing is found, not even the host bridge itself,
since the loop over the functions starts with bus 1. -/
theorem bus_zero_not_scanned : HostBridgeTrees multiFunctionSpace ∧
    ∃ found, scanAllBus multiFunctionSpace = .ok (.kSuccess, found) ∧
      ¬ Covers multiFunctionSpace found := by
  have hhost : hostBuses multiFunctionSpace = [0] := by decide +kernel
  have hzero : functionsOf multiFunctionSpace 0 =
      [entry multiFunctionSpace 0 0 0, entry multiFunctionSpace 0 1 0] := by decide +kernel
  have hnowhere : ∀ d ∈ functionsOf multiFunctionSpace 0,
      secondaryBus multiFunctionSpace d = none := by
    rw [hzero]
    decide +kernel
  have hreachable : ∀ {bus}, BehindBus multiFunctionSpace 0 bus → bus = 0 := by
    rintro bus ⟨n, hbelow⟩
    induction hbelow with
    | refl => rfl
    | step _ hd hbus' ih =>
        rw [ih] at hd
        rw [hnowhere _ hd] at hbus'
        cases hbus'
  have hlist : preorderOf multiFunctionSpace 0 =
      [entry multiFunctionSpace 0 0 0, entry multiFunctionSpace 0 1 0] := by
    rw [preorderOf, preorder, card_buses]
    decide +kernel
  refine ⟨⟨?_, ?_, ?_⟩, Table.empty, ?_, ?_⟩
  · intro root hroot
    rw [hhost] at hroot
    obtain rfl := List.mem_singleton.mp hroot
    constructor
    · intro bus bus₁ bus' d d₁ hbus _ hd _ hbehind _
      rw [hreachable hbus] at hd
      rw [hnowhere d hd] at hbehind
      cases hbehind
    · intro bus d hbus hd hbehind
      rw [hreachable hbus] at hd
      rw [hnowhere d hd] at hbehind
      cases hbehind
  · intro root hroot root' hroot' _ _ _
    rw [hhost] at hroot hroot'
    exact (List.mem_singleton.mp hroot).trans (List.mem_singleton.mp hroot').symm
  · rw [hhost, List.flatMap_singleton, hlist]
    decide
  · have hbuses : scannedBuses multiFunctionSpace = [] := by decide +kernel
    rw [scanAllBus_eq, hbuses]
    rfl
  · rintro ⟨-, hcovers⟩
    have hfound := (hcovers (entry multiFunctionSpace 0 0 0)).mpr
      ⟨0, by rw [hhost]; exact List.mem_cons_self, 0, ⟨0, .refl⟩, by
        rw [hzero]
        exact List.mem_cons_self⟩
    cases hfound

end Mikanos.Pci
