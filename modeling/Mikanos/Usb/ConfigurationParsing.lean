import Mikanos.Usb.Device

/-!
# Reading a configuration

What `InitializePhase2` does with a well-formed buffer.  The buffer is a list of
descriptors laid end to end, each with its own size in its first byte.  On such
a buffer the cursor of the reader always stands at the start of a descriptor
(`Standing`), and one `Next` moves it to the following one.  The two nested
loops of the source then do what the abstract functions `firstSupported` and
`endpointsOf` say about the list, and the proofs follow the list.
-/

namespace Mikanos.Xhci.Device

open Mikanos.Usb

/-! ## Lists of descriptors -/

/-- The bytes of one descriptor. -/
abbrev Descriptor := List (BitVec 8)

namespace Descriptor

/-- Byte `i` of a descriptor. -/
def byteAt (d : Descriptor) (i : Nat) : BitVec 8 := d.getD i 0

/-- The type byte. -/
def type (d : Descriptor) : BitVec 8 := d.byteAt 1

/-- A descriptor read as an interface descriptor. -/
def interface (d : Descriptor) : InterfaceDescriptor :=
  ⟨d.byteAt 2, d.byteAt 4, d.byteAt 5, d.byteAt 6, d.byteAt 7⟩

/-- A descriptor read as an endpoint descriptor. -/
def epConfig (d : Descriptor) : EndpointConfig :=
  makeEPConfig (d.byteAt 2) (d.byteAt 3) (d.byteAt 4) (d.byteAt 5) (d.byteAt 6)

/-- The first byte is the size, and the descriptor is large enough for the
fields of its type. -/
structure WellFormed (d : Descriptor) : Prop where
  two_le : 2 ≤ d.length
  bLength : (d.byteAt 0).toNat = d.length
  interface_size : d.type = kInterfaceDescriptor → 9 ≤ d.length
  endpoint_size : d.type = kEndpointDescriptor → 7 ≤ d.length
  hid_size : d.type = kHidDescriptor → 6 + 3 * (d.byteAt 5).toNat ≤ d.length

end Descriptor

/-- The first interface descriptor with a class driver, with the kind of driver
and what follows the descriptor. -/
def firstSupported : List Descriptor → Option (Descriptor × HidKind × List Descriptor)
  | [] => none
  | d :: rest =>
      if d.type = kInterfaceDescriptor then
        match supportedKind d.interface with
        | some kind => some (d, kind, rest)
        | none => firstSupported rest
      else firstSupported rest

/-- The endpoint descriptors before the next interface descriptor. -/
def endpointsOf : List Descriptor → List Descriptor
  | [] => []
  | d :: rest =>
      if d.type = kInterfaceDescriptor then []
      else if d.type = kEndpointDescriptor then d :: endpointsOf rest
      else endpointsOf rest

/-- What is to become of a device when the new class driver `d` at `classDriver`
drives its first supported interface, whose endpoints are `confs`. -/
def configured (dev : Device) (classDriver : Addr) (d : HidDriver) (confs : List EndpointConfig) :
    Device :=
  { dev.setDriver classDriver d with
    epConfigs := fun i => confs.getD i.val (dev.epConfigs i)
    numEpConfigs := confs.length
    classDrivers := fun k =>
      if confs.any (fun conf => conf.epId.number == k.val) then classDriver
      else dev.classDrivers k
    initializePhase := 3 }

/-! ## The cursor -/

/-- The reader stands at descriptor `d` of a well-formed buffer, with `rest`
still ahead. -/
structure Standing (m : Dma) (r : Reader) (done : List Descriptor) (d : Descriptor)
    (rest : List Descriptor) : Prop where
  nonnull : r.descBuf ≠ nullptr
  bytes : m.bytes r.descBuf = (done ++ d :: rest).flatten
  length : r.descBufLen = ((done ++ d :: rest).flatten.length : Int)
  cursor : r.p = done.flatten.length
  wellFormed : ∀ x ∈ d :: rest, x.WellFormed

section Cursor

variable {m : Dma} {r : Reader} {done : List Descriptor} {d : Descriptor}
  {rest : List Descriptor}

/-- Reading inside the descriptor at the cursor. -/
theorem Standing.byte (h : Standing m r done d rest) {i : Nat} (hi : i < d.length) :
    m.byte r.descBuf (r.p + i) = .ok (d.byteAt i) := by
  have hget : (m.bytes r.descBuf)[r.p + i]? = some (d.byteAt i) := by
    rw [h.bytes, h.cursor, List.flatten_append, List.flatten_cons,
      List.getElem?_append_right (Nat.le_add_right _ _), Nat.add_sub_cancel_left,
      List.getElem?_append_left hi, List.getElem?_eq_getElem hi, Descriptor.byteAt,
      List.getD_eq_getElem?_getD, List.getElem?_eq_getElem hi, Option.getD_some]
  rw [Dma.byte, if_neg h.nonnull, hget]

/-- The reader one descriptor further on. -/
def Reader.after (r : Reader) (d : Descriptor) : Reader := { r with p := r.p + d.length }

/-- **One `Next`** moves to the following descriptor: the reader stands at it, and the one it
has left counts as done. -/
theorem Standing.next {d' : Descriptor} (h : Standing m r done d (d' :: rest)) :
    r.next m = .ok (some (r.after d).p, r.after d) ∧
      Standing m (r.after d) (done ++ [d]) d' rest := by
  have hwf := h.wellFormed d List.mem_cons_self
  have hwf' := h.wellFormed d' (List.mem_cons_of_mem _ List.mem_cons_self)
  have hlength : m.byte r.descBuf r.p = .ok (d.byteAt 0) :=
    h.byte (i := 0) (by have := hwf.two_le; omega)
  have hsplit : done ++ d :: d' :: rest = (done ++ [d]) ++ d' :: rest := by simp
  have hinside : ((r.p + d.length : Nat) : Int) < r.descBufLen := by
    rw [h.length, h.cursor]
    simp only [List.flatten_append, List.flatten_cons, List.length_append]
    have := hwf'.two_le
    omega
  refine ⟨?_, ?_⟩
  · rw [Reader.next, hlength]
    show Except.ok (if ((r.p + (d.byteAt 0).toNat : Nat) : Int) < r.descBufLen then
      some (r.p + (d.byteAt 0).toNat) else none,
      ({ r with p := r.p + (d.byteAt 0).toNat } : Reader)) = _
    rw [hwf.bLength, if_pos hinside]
    rfl
  · exact
      { nonnull := h.nonnull
        bytes := by rw [← hsplit]; exact h.bytes
        length := by rw [← hsplit]; exact h.length
        cursor := by
          show r.p + d.length = _
          rw [h.cursor]
          simp
        wellFormed := fun x hx => h.wellFormed x (List.mem_cons_of_mem _ hx) }

/-- `Next` at the last descriptor finds nothing more: the length of the last one leads to the
end of the buffer. -/
theorem Standing.next_nil (h : Standing m r done d []) :
    r.next m = .ok (none, r.after d) := by
  have hwf := h.wellFormed d List.mem_cons_self
  have hlength : m.byte r.descBuf r.p = .ok (d.byteAt 0) :=
    h.byte (i := 0) (by have := hwf.two_le; omega)
  have hend : ¬ ((r.p + d.length : Nat) : Int) < r.descBufLen := by
    rw [h.length, h.cursor]
    simp
  rw [Reader.next, hlength]
  show Except.ok (if ((r.p + (d.byteAt 0).toNat : Nat) : Int) < r.descBufLen then
    some (r.p + (d.byteAt 0).toNat) else none,
    ({ r with p := r.p + (d.byteAt 0).toNat } : Reader)) = _
  rw [hwf.bLength, if_neg hend]
  rfl

/-- The type byte of the descriptor at the cursor. -/
theorem Standing.type (h : Standing m r done d rest) :
    m.byte r.descBuf (r.p + 1) = .ok d.type :=
  h.byte (by have := (h.wellFormed d List.mem_cons_self).two_le; omega)

end Cursor

/-! ## Looking for an interface -/

/-- The first descriptor of a type, and what follows it. -/
def firstOfType (kType : BitVec 8) : List Descriptor → Option (Descriptor × List Descriptor)
  | [] => none
  | d :: rest => if d.type = kType then some (d, rest) else firstOfType kType rest

/-- What follows the first descriptor of a type is shorter than the whole list, so a search that
goes on behind it comes to an end. -/
theorem firstOfType_length {kType : BitVec 8} {rest after : List Descriptor} {d : Descriptor}
    (h : firstOfType kType rest = some (d, after)) : after.length < rest.length := by
  induction rest with
  | nil => cases h
  | cons x rest ih =>
      rw [firstOfType] at h
      split at h
      · cases h
        exact Nat.lt_succ_self _
      · exact Nat.lt_succ_of_lt (ih h)

/-- The descriptor that `firstOfType` stops at has the type that was looked for. -/
theorem firstOfType_type {kType : BitVec 8} {rest after : List Descriptor} {d : Descriptor}
    (h : firstOfType kType rest = some (d, after)) : d.type = kType := by
  induction rest with
  | nil => cases h
  | cons x rest ih =>
      rw [firstOfType] at h
      split at h
      · cases h
        assumption
      · exact ih h

/-- The first supported interface is the first interface, if a class driver supports it, and
otherwise the first supported one behind it. -/
theorem firstSupported_eq (rest : List Descriptor) :
    firstSupported rest =
      match firstOfType kInterfaceDescriptor rest with
      | none => none
      | some (d, after) =>
          match supportedKind d.interface with
          | some kind => some (d, kind, after)
          | none => firstSupported after := by
  induction rest with
  | nil => rfl
  | cons d rest ih =>
      rw [firstSupported, firstOfType]
      by_cases htype : d.type = kInterfaceDescriptor
      · rw [if_pos htype, if_pos htype]
      · rw [if_neg htype, if_neg htype, ih]

/-- **`Next<T>`** stops at the first descriptor of the type of `T`, or finds nothing if there is
none, by induction over the descriptors that are left. -/
theorem Standing.nextOf {m : Dma} (kType : BitVec 8) {rest : List Descriptor} :
    ∀ {r : Reader} {done : List Descriptor} {d : Descriptor} {fuel : Nat},
      Standing m r done d rest → rest.length < fuel →
      match firstOfType kType rest with
      | none => ∃ r', r.nextOf m kType fuel = .ok (none, r')
      | some (d', after) => ∃ r' done', r.nextOf m kType fuel = .ok (some r'.p, r') ∧
          r'.descBuf = r.descBuf ∧ Standing m r' done' d' after := by
  induction rest with
  | nil =>
      intro r done d fuel h hfuel
      obtain ⟨fuel, rfl⟩ := Nat.exists_eq_succ_of_ne_zero (Nat.ne_of_gt hfuel)
      refine ⟨r.after d, ?_⟩
      rw [Reader.nextOf, h.next_nil]
      rfl
  | cons d' rest ih =>
      intro r done d fuel h hfuel
      obtain ⟨fuel, rfl⟩ := Nat.exists_eq_succ_of_ne_zero (Nat.ne_zero_of_lt hfuel)
      obtain ⟨hnext, hstand⟩ := h.next
      have htype : m.byte r.descBuf ((r.after d).p + 1) = .ok d'.type := hstand.type
      have hstep : r.nextOf m kType (fuel + 1) =
          if d'.type = kType then .ok (some (r.after d).p, r.after d)
          else (r.after d).nextOf m kType fuel := by
        rw [Reader.nextOf, hnext]
        show (do
          let type ← m.byte r.descBuf ((r.after d).p + 1)
          if type = kType then return (some (r.after d).p, r.after d)
          else (r.after d).nextOf m kType fuel) = _
        rw [htype]
        rfl
      rw [firstOfType]
      by_cases heq : d'.type = kType
      · rw [if_pos heq]
        rw [if_pos heq] at hstep
        exact ⟨r.after d, done ++ [d], hstep, rfl, hstand⟩
      · rw [if_neg heq]
        rw [if_neg heq] at hstep
        rw [hstep]
        exact ih hstand (Nat.lt_of_succ_lt_succ hfuel)

/-- Reading the interface descriptor at the cursor. -/
theorem Standing.readInterface {m : Dma} {r : Reader} {done rest : List Descriptor}
    {d : Descriptor} (h : Standing m r done d rest) (htype : d.type = kInterfaceDescriptor) :
    readInterface m r.descBuf r.p = .ok d.interface := by
  have hsize := (h.wellFormed d List.mem_cons_self).interface_size htype
  rw [Device.readInterface, h.byte (by omega), h.byte (by omega), h.byte (by omega),
    h.byte (by omega), h.byte (by omega)]
  rfl

/-- Creating a class driver in a block of the pool. -/
theorem placeClassDriver_of_ne (dev : Device) (kind : HidKind) (interfaceNumber : BitVec 8)
    (observers : Nat) {block : Addr × Usb.Pool} (h : block.1 ≠ nullptr) :
    placeClassDriver dev kind interfaceNumber observers block =
      .ok (block.1, dev.setDriver block.1 (newHidDriver kind interfaceNumber observers),
        block.2) := by
  rw [placeClassDriver, if_neg h]

/-- One pass of the interface loop. -/
theorem interfaceLoop_step {m : Dma} {obs : DefaultObservers} {loopFuel fuel : Nat}
    {r r' : Reader} {done after : List Descriptor} {d : Descriptor} {dev : Device}
    {pool : Usb.Pool}
    (hnext : r.nextOf m kInterfaceDescriptor loopFuel = .ok (some r'.p, r'))
    (hstand : Standing m r' done d after) (htype : d.type = kInterfaceDescriptor) :
    interfaceLoop m obs loopFuel (fuel + 1) r dev pool =
      (newClassDriver obs dev d.interface pool).bind fun x =>
        if x.1 = nullptr then interfaceLoop m obs loopFuel fuel r' x.2.1 x.2.2
        else (endpointLoop m d.interface.numEndpoints x.1 loopFuel r' x.2.1.clearEndpoints).bind
          fun y => .ok (x.1, y.2, x.2.2) := by
  rw [interfaceLoop, hnext]
  simp only [bind, bind_ok]
  rw [hstand.readInterface htype]
  rfl

/-- **The interface loop** looks for the first supported interface.  Without one
it changes nothing; otherwise it creates a driver there and goes on with the
endpoints behind it. -/
theorem Standing.interfaceLoop {m : Dma} (obs : DefaultObservers) {loopFuel : Nat} (dev : Device)
    {pool : Usb.Pool} {block : Addr × Usb.Pool} (hblock : pool.allocMem hidSizeOf 0 0 = block)
    (hpool : block.1 ≠ nullptr) (fuel : Nat) :
    ∀ {r : Reader} {done rest : List Descriptor} {d : Descriptor},
      Standing m r done d rest → rest.length < fuel → rest.length < loopFuel →
      match firstSupported rest with
      | none => interfaceLoop m obs loopFuel fuel r dev pool = .ok (nullptr, dev, pool)
      | some (i, kind, after) => ∃ r' done', Standing m r' done' i after ∧
          interfaceLoop m obs loopFuel fuel r dev pool =
            (endpointLoop m i.interface.numEndpoints block.1 loopFuel r'
              (dev.setDriver block.1 (newHidDriver kind i.interface.interfaceNumber
                (obs.count kind))).clearEndpoints).bind fun y => .ok (block.1, y.2, block.2) := by
  induction fuel with
  | zero => exact fun _ hfuel => absurd hfuel (Nat.not_lt_zero _)
  | succ fuel ih =>
      intro r done rest d h hfuel hloop
      have hnext := h.nextOf kInterfaceDescriptor hloop
      rw [firstSupported_eq]
      cases hfirst : firstOfType kInterfaceDescriptor rest with
      | none =>
          rw [hfirst] at hnext
          obtain ⟨r', hnext⟩ := hnext
          show Device.interfaceLoop m obs loopFuel (fuel + 1) r dev pool = _
          rw [Device.interfaceLoop, hnext]
          rfl
      | some found =>
          obtain ⟨i, after⟩ := found
          rw [hfirst] at hnext
          obtain ⟨r', done', hnext, -, hstand⟩ := hnext
          have hlt := firstOfType_length hfirst
          have htype : i.type = kInterfaceDescriptor := firstOfType_type hfirst
          dsimp only
          rw [interfaceLoop_step hnext hstand htype, newClassDriver]
          cases hkind : supportedKind i.interface with
          | none =>
              exact ih hstand (by omega) (by omega)
          | some kind =>
              dsimp only
              refine ⟨r', done', hstand, ?_⟩
              rw [hblock, placeClassDriver_of_ne dev kind _ _ hpool]
              show (if block.1 = nullptr then _ else _) = _
              rw [if_neg hpool]

/-! ## Taking over the endpoints -/

/-- The number of an endpoint is a subscript of `class_drivers_`. -/
theorem epConfig_number (d : Descriptor) :
    0 ≤ d.epConfig.epId.number ∧ d.epConfig.epId.number < 16 := by
  have hlt : ((d.byteAt 2).extractLsb' 0 4).toNat < 16 := BitVec.isLt _
  simp only [Descriptor.epConfig, makeEPConfig, EndpointID.ofNumber, EndpointID.number]
  split <;> omega

/-- The device after `confs` more endpoints. -/
def withEndpoints (dev : Device) (classDriver : Addr) : List EndpointConfig → Device
  | [] => dev
  | conf :: confs =>
      withEndpoints { dev with
        epConfigs := fun i => if i.val = dev.numEpConfigs then conf else dev.epConfigs i
        numEpConfigs := dev.numEpConfigs + 1
        classDrivers := fun k => if conf.epId.number = k.val then classDriver
          else dev.classDrivers k } classDriver confs

/-- `addEndpoint` on a device with a free entry takes it: the configuration is recorded, the
count goes up, and the class driver serves the number of the endpoint. -/
theorem addEndpoint_eq {dev : Device} {conf : EndpointConfig} {classDriver : Addr}
    (hroom : dev.numEpConfigs < 16) (hnumber : 0 ≤ conf.epId.number ∧ conf.epId.number < 16) :
    dev.addEndpoint conf classDriver =
      .ok { dev with
        epConfigs := fun i => if i.val = dev.numEpConfigs then conf else dev.epConfigs i
        numEpConfigs := dev.numEpConfigs + 1
        classDrivers := fun k => if conf.epId.number = k.val then classDriver
          else dev.classDrivers k } := by
  have hconfigs : Function.update dev.epConfigs ⟨dev.numEpConfigs, hroom⟩ conf =
      fun i => if i.val = dev.numEpConfigs then conf else dev.epConfigs i := by
    funext i
    rw [Function.update_apply]
    simp only [Fin.ext_iff]
  have hdrivers : Function.update dev.classDrivers
      (⟨conf.epId.number.toNat, by omega⟩ : Fin 16) classDriver =
      fun k => if conf.epId.number = k.val then classDriver else dev.classDrivers k := by
    funext k
    rw [Function.update_apply]
    have hiff : k = ⟨conf.epId.number.toNat, by omega⟩ ↔ conf.epId.number = k.val := by
      rw [Fin.ext_iff]
      show k.val = conf.epId.number.toNat ↔ _
      omega
    simp only [hiff]
  rw [addEndpoint, dif_pos ⟨hroom, hnumber.1, hnumber.2⟩, hconfigs, hdrivers]

/-- Reading the endpoint descriptor at the cursor. -/
theorem Standing.readEPConfig {m : Dma} {r : Reader} {done rest : List Descriptor}
    {d : Descriptor} (h : Standing m r done d rest) (htype : d.type = kEndpointDescriptor) :
    readEPConfig m r.descBuf r.p = .ok d.epConfig := by
  have hsize := (h.wellFormed d List.mem_cons_self).endpoint_size htype
  rw [Device.readEPConfig, h.byte (by omega), h.byte (by omega), h.byte (by omega),
    h.byte (by omega), h.byte (by omega)]
  rfl

/-- A run of bytes each of which can be read can be read as a whole, by induction on its length.
-/
theorem readBytes_ok {m : Dma} {p : Addr} {n : Nat} :
    ∀ {i : Nat}, (∀ j, j < n → ∃ b, m.byte p (i + j) = .ok b) →
      ∃ bs, readBytes m p i n = .ok bs := by
  induction n with
  | zero => exact fun _ => ⟨[], rfl⟩
  | succ n ih =>
      intro i h
      obtain ⟨b, hb⟩ := h 0 (Nat.succ_pos n)
      obtain ⟨bs, hbs⟩ := ih (i := i + 1) fun j hj => by
        obtain ⟨b, hb⟩ := h (j + 1) (Nat.succ_lt_succ hj)
        exact ⟨b, by rw [Nat.add_assoc, Nat.add_comm 1 j]; exact hb⟩
      refine ⟨b :: bs, ?_⟩
      rw [readBytes, List.range'_succ, List.mapM_cons, ← readBytes, hbs]
      rw [Nat.add_zero] at hb
      rw [hb]
      rfl

/-- Logging the HID descriptor at the cursor reads bytes of the descriptor only, so it ends
without a fault. -/
theorem Standing.logHid {m : Dma} {r : Reader} {done rest : List Descriptor} {d : Descriptor}
    (h : Standing m r done d rest) (htype : d.type = kHidDescriptor) :
    logHid m r.descBuf r.p = .ok () := by
  have hsize := (h.wellFormed d List.mem_cons_self).hid_size htype
  obtain ⟨bs, hbs⟩ := readBytes_ok (m := m) (p := r.descBuf) (n := 3 * (d.byteAt 5).toNat)
    (i := r.p + 6) fun j hj => ⟨d.byteAt (6 + j), by
      rw [Nat.add_assoc]
      exact h.byte (by omega)⟩
  rw [Device.logHid, h.byte (by omega), h.byte (by omega), h.byte (by omega)]
  show (do
    let _ ← readBytes m r.descBuf (r.p + 6) (3 * (d.byteAt 5).toNat)
    return ()) = _
  rw [hbs]
  rfl

/-- One pass of the endpoint loop: an endpoint descriptor is recorded, a HID descriptor is
logged, and another one is passed over. -/
theorem Standing.endpointLoop_step {m : Dma} {numEndpoints : BitVec 8} (classDriver : Addr)
    (fuel : Nat) {r : Reader} {done rest : List Descriptor} {d d' : Descriptor} {dev : Device}
    (h : Standing m r done d (d' :: rest)) (hroom : dev.numEpConfigs < 16)
    (hmore : dev.numEpConfigs < numEndpoints.toNat) :
    endpointLoop m numEndpoints classDriver (fuel + 1) r dev =
      endpointLoop m numEndpoints classDriver fuel (r.after d)
        (if d'.type = kEndpointDescriptor then withEndpoints dev classDriver [d'.epConfig]
          else dev) := by
  obtain ⟨hnext, hstand⟩ := h.next
  rw [endpointLoop, if_pos hmore, hnext]
  show (do
    let type ← m.byte (r.after d).descBuf ((r.after d).p + 1)
    if type = kEndpointDescriptor then do
      let conf ← Device.readEPConfig m (r.after d).descBuf (r.after d).p
      let dev ← dev.addEndpoint conf classDriver
      endpointLoop m numEndpoints classDriver fuel (r.after d) dev
    else if type = kHidDescriptor then do
      Device.logHid m (r.after d).descBuf (r.after d).p
      endpointLoop m numEndpoints classDriver fuel (r.after d) dev
    else endpointLoop m numEndpoints classDriver fuel (r.after d) dev) = _
  rw [hstand.type]
  show (if d'.type = kEndpointDescriptor then _ else _) = _
  by_cases hendpoint : d'.type = kEndpointDescriptor
  · rw [if_pos hendpoint, if_pos hendpoint, hstand.readEPConfig hendpoint]
    show (do
      let dev ← dev.addEndpoint d'.epConfig classDriver
      endpointLoop m numEndpoints classDriver fuel (r.after d) dev) = _
    rw [addEndpoint_eq hroom (epConfig_number d')]
    rfl
  · rw [if_neg hendpoint, if_neg hendpoint]
    by_cases hhid : d'.type = kHidDescriptor
    · rw [if_pos hhid, hstand.logHid hhid]
      rfl
    · rw [if_neg hhid]

/-- **The endpoint loop** takes over exactly the endpoints before the next
interface, when their number is the one announced. -/
theorem Standing.endpointLoop {m : Dma} {numEndpoints : BitVec 8} (classDriver : Addr)
    {rest : List Descriptor} (hmax : numEndpoints.toNat ≤ 16) :
    ∀ (dev : Device) {r : Reader} {done : List Descriptor} {d : Descriptor} {fuel : Nat},
      Standing m r done d rest → rest.length < fuel →
      dev.numEpConfigs + (endpointsOf rest).length = numEndpoints.toNat →
      ∃ r', Device.endpointLoop m numEndpoints classDriver fuel r dev =
        .ok (r', withEndpoints dev classDriver ((endpointsOf rest).map Descriptor.epConfig)) := by
  have hfull : ∀ (r : Reader) (dev : Device) (fuel : Nat), 0 < fuel →
      dev.numEpConfigs = numEndpoints.toNat →
      Device.endpointLoop m numEndpoints classDriver fuel r dev = .ok (r, dev) := by
    intro r dev fuel hfuel heq
    obtain ⟨fuel, rfl⟩ := Nat.exists_eq_succ_of_ne_zero (Nat.ne_of_gt hfuel)
    rw [Device.endpointLoop, if_neg (by omega)]
  induction rest with
  | nil =>
      intro dev r done d fuel h hfuel hcount
      exact ⟨r, hfull r dev fuel hfuel hcount⟩
  | cons d' rest ih =>
      intro dev r done d fuel h hfuel hcount
      have hstand := h.next.2
      by_cases hdone : dev.numEpConfigs = numEndpoints.toNat
      · have hnone : endpointsOf (d' :: rest) = [] := List.eq_nil_of_length_eq_zero (by omega)
        rw [hnone]
        exact ⟨r, hfull r dev fuel (by omega) hdone⟩
      · obtain ⟨fuel, rfl⟩ := Nat.exists_eq_succ_of_ne_zero (Nat.ne_zero_of_lt hfuel)
        have hstep := h.endpointLoop_step classDriver fuel (by omega)
          (by omega : dev.numEpConfigs < numEndpoints.toNat)
        rw [hstep]
        have hother : d'.type ≠ kInterfaceDescriptor := by
          intro htype
          rw [endpointsOf, if_pos htype, List.length_nil] at hcount
          omega
        rw [endpointsOf, if_neg hother] at hcount ⊢
        by_cases hendpoint : d'.type = kEndpointDescriptor
        · rw [if_pos hendpoint] at hcount ⊢
          rw [if_pos hendpoint]
          rw [List.length_cons] at hcount
          exact ih _ hstand (Nat.lt_of_succ_lt_succ hfuel)
            (by show dev.numEpConfigs + 1 + _ = _; omega)
        · rw [if_neg hendpoint] at hcount ⊢
          rw [if_neg hendpoint]
          exact ih _ hstand (Nat.lt_of_succ_lt_succ hfuel) hcount

/-- Taking over the endpoints one by one, from none on, configures the device: the table holds
them in order, and each number is served by the class driver. -/
theorem withEndpoints_eq (classDriver : Addr) (confs : List EndpointConfig) :
    ∀ dev : Device, withEndpoints dev classDriver confs =
      { dev with
        epConfigs := fun i =>
          if dev.numEpConfigs ≤ i.val then
            confs.getD (i.val - dev.numEpConfigs) (dev.epConfigs i)
          else dev.epConfigs i
        numEpConfigs := dev.numEpConfigs + confs.length
        classDrivers := fun k =>
          if confs.any (fun conf => conf.epId.number == k.val) then classDriver
          else dev.classDrivers k } := by
  induction confs with
  | nil =>
      intro dev
      simp [withEndpoints]
  | cons conf confs ih =>
      intro dev
      rw [withEndpoints, ih]
      have hconfigs : (fun i : Fin 16 =>
          if dev.numEpConfigs + 1 ≤ i.val then
            confs.getD (i.val - (dev.numEpConfigs + 1))
              (if i.val = dev.numEpConfigs then conf else dev.epConfigs i)
          else if i.val = dev.numEpConfigs then conf else dev.epConfigs i) =
          fun i => if dev.numEpConfigs ≤ i.val then
            (conf :: confs).getD (i.val - dev.numEpConfigs) (dev.epConfigs i)
          else dev.epConfigs i := by
        funext i
        rcases Nat.lt_trichotomy i.val dev.numEpConfigs with hlt | heq | hgt
        · rw [if_neg (by omega), if_neg (by omega), if_neg (by omega)]
        · rw [if_neg (by omega), if_pos heq, if_pos (by omega), heq, Nat.sub_self]
          rfl
        · obtain ⟨k, hk⟩ : ∃ k, i.val = dev.numEpConfigs + (k + 1) :=
            ⟨i.val - dev.numEpConfigs - 1, by omega⟩
          rw [if_pos (by omega), if_neg (by omega), if_pos (by omega), hk,
            Nat.add_sub_cancel_left, List.getD_cons_succ]
          congr 1
          omega
      have hdrivers : (fun k : Fin 16 =>
          if confs.any (fun conf => conf.epId.number == k.val) then classDriver
          else if conf.epId.number = k.val then classDriver else dev.classDrivers k) =
          fun k => if (conf :: confs).any (fun conf => conf.epId.number == k.val) then classDriver
            else dev.classDrivers k := by
        funext k
        rw [List.any_cons]
        by_cases hk : conf.epId.number = k.val
        · simp [hk]
        · simp [hk]
      rw [hconfigs, hdrivers, List.length_cons, Nat.add_assoc, Nat.add_comm 1]

/-- The driver placed and all its endpoints taken over. -/
theorem configured_eq (dev : Device) (classDriver : Addr) (d : HidDriver)
    (confs : List EndpointConfig) :
    { withEndpoints (dev.setDriver classDriver d).clearEndpoints classDriver confs with
      initializePhase := 3 } = configured dev classDriver d confs := by
  rw [withEndpoints_eq]
  simp only [configured, clearEndpoints, setDriver, Nat.zero_le, if_true, Nat.sub_zero,
    Nat.zero_add]

/-- A buffer of well-formed descriptors has at least as many bytes as descriptors, so its length
is fuel enough for every loop over them. -/
theorem length_le_flatten (ds : List Descriptor) (h : ∀ d ∈ ds, d.WellFormed) :
    ds.length ≤ ds.flatten.length := by
  induction ds with
  | nil => exact Nat.le_refl 0
  | cons d ds ih =>
      have htwo := (h d List.mem_cons_self).two_le
      have hrest := ih fun x hx => h x (List.mem_cons_of_mem _ hx)
      rw [List.flatten_cons, List.length_append, List.length_cons]
      omega

/-- The end of `InitializePhase2` with a class driver, from the loop over its
endpoints on. -/
theorem selectConfiguration_eq {m : Dma} {buf classDriver : Addr} {value : BitVec 8}
    {endpoints : Except Fault (Reader × Device)} {r : Reader} {dev : Device} (pool : Usb.Pool)
    (hendpoints : endpoints = .ok (r, dev)) (hne : classDriver ≠ nullptr)
    (hvalue : m.byte buf 5 = .ok value) :
    (endpoints.bind fun y => .ok (classDriver, y.2, pool)).bind
        (fun x => selectConfiguration m buf x.1 x.2.1 x.2.2) =
      (({ dev with initializePhase := 3 } : Device).setConfiguration kDefaultControlPipeID
        value).map fun x => (x.1, x.2, pool) := by
  rw [hendpoints]
  change selectConfiguration m buf classDriver dev pool = _
  rw [selectConfiguration, if_neg hne, hvalue]
  rfl

/-- The first supported interface stands between the descriptors that were skipped and those
that follow it, in the order of the buffer. -/
theorem firstSupported_split {rest after : List Descriptor} {i : Descriptor} {kind : HidKind}
    (h : firstSupported rest = some (i, kind, after)) :
    ∃ before, rest = before ++ i :: after ∧ i.type = kInterfaceDescriptor := by
  induction rest with
  | nil => cases h
  | cons d rest ih =>
      have hskip : firstSupported rest = some (i, kind, after) →
          ∃ before, d :: rest = before ++ i :: after ∧ i.type = kInterfaceDescriptor := by
        intro h
        obtain ⟨before, heq, htype⟩ := ih h
        exact ⟨d :: before, by rw [heq, List.cons_append], htype⟩
      rw [firstSupported] at h
      by_cases htype : d.type = kInterfaceDescriptor
      · rw [if_pos htype] at h
        cases hkind : supportedKind d.interface with
        | none =>
            rw [hkind] at h
            exact hskip h
        | some kind' =>
            rw [hkind] at h
            cases h
            exact ⟨[], rfl, htype⟩
      · rw [if_neg htype] at h
        exact hskip h

/-- **Parsing a well-formed configuration.**  Without a supported interface
nothing changes and nothing is requested.  Otherwise the class driver of the
first one is created, the endpoints between it and the next interface are
recorded in order and given to that driver, and its configuration is selected. -/
theorem initializePhase2_wellFormed {m : Dma} {obs : DefaultObservers} {dev : Device}
    {pool : Usb.Pool} {buf : Addr} {conf : Descriptor} {rest : List Descriptor}
    (hbuf : buf ≠ nullptr) (hbytes : m.bytes buf = (conf :: rest).flatten)
    (hwf : ∀ d ∈ conf :: rest, d.WellFormed) (hconf : conf.type = kConfigurationDescriptor)
    (hpool : (pool.allocMem hidSizeOf 0 0).1 ≠ nullptr)
    (hendpoints : ∀ i kind after, firstSupported rest = some (i, kind, after) →
      (endpointsOf after).length = i.interface.numEndpoints.toNat ∧
        i.interface.numEndpoints.toNat ≤ 16) :
    (firstSupported rest = none →
      initializePhase2 m obs dev pool buf (conf :: rest).flatten.length =
        .ok (.kSuccess, dev, pool)) ∧
    ∀ i kind after, firstSupported rest = some (i, kind, after) →
      initializePhase2 m obs dev pool buf (conf :: rest).flatten.length =
        ((configured dev (pool.allocMem hidSizeOf 0 0).1
          (newHidDriver kind i.interface.interfaceNumber (obs.count kind))
          ((endpointsOf after).map Descriptor.epConfig)).setConfiguration kDefaultControlPipeID
            ((conf :: rest).flatten.getD 5 0)).map
          fun x => (x.1, x.2, (pool.allocMem hidSizeOf 0 0).2) := by
  generalize hblock : pool.allocMem hidSizeOf 0 0 = block at hpool ⊢
  have hstart : Standing m ⟨buf, ((conf :: rest).flatten.length : Int), 0⟩ [] conf rest :=
    ⟨hbuf, hbytes, rfl, rfl, hwf⟩
  have hcount := length_le_flatten (conf :: rest) hwf
  rw [List.length_cons] at hcount
  have hfuel : rest.length < loopFuelOf ((conf :: rest).flatten.length : Int) := by
    rw [loopFuelOf, Int.toNat_natCast]
    omega
  have htype := hstart.type
  rw [hconf] at htype
  change m.byte buf 1 = .ok kConfigurationDescriptor at htype
  have hrun : initializePhase2 m obs dev pool buf ((conf :: rest).flatten.length : Int) =
      (Device.interfaceLoop m obs (loopFuelOf ((conf :: rest).flatten.length : Int))
        (loopFuelOf ((conf :: rest).flatten.length : Int))
        ⟨buf, ((conf :: rest).flatten.length : Int), 0⟩ dev pool).bind
        fun x => selectConfiguration m buf x.1 x.2.1 x.2.2 := by
    rw [initializePhase2, htype]
    rfl
  rw [hrun]
  generalize loopFuelOf ((conf :: rest).flatten.length : Int) = fuel at hfuel ⊢
  have hloop := hstart.interfaceLoop obs dev hblock hpool fuel hfuel hfuel
  refine ⟨fun hfirst => ?_, fun i kind after hfirst => ?_⟩
  · rw [hfirst] at hloop
    rw [hloop, bind_ok, selectConfiguration, if_pos rfl]
  · rw [hfirst] at hloop
    obtain ⟨r', done', hstand, hloop⟩ := hloop
    obtain ⟨hnum, hmax⟩ := hendpoints i kind after hfirst
    obtain ⟨before, hsplit, htype⟩ := firstSupported_split hfirst
    have hafter : after.length < rest.length := by
      rw [hsplit, List.length_append, List.length_cons]
      omega
    -- The driver is placed, then its endpoints are taken over from none on.
    obtain ⟨r'', hendpointLoop⟩ := hstand.endpointLoop block.1 hmax
      (dev.setDriver block.1
        (newHidDriver kind i.interface.interfaceNumber (obs.count kind))).clearEndpoints
      (Nat.lt_trans hafter hfuel) ((Nat.zero_add _).trans hnum)
    -- The configuration value is there: the buffer holds an interface descriptor.
    have hvalue : m.byte buf 5 = .ok ((conf :: rest).flatten.getD 5 0) := by
      have hi : i ∈ conf :: rest := by
        rw [hsplit]
        simp
      have hnine := (hwf i hi).interface_size htype
      have hlen : 5 < (conf :: rest).flatten.length := by
        rw [hsplit, List.flatten_cons, List.flatten_append, List.flatten_cons]
        simp only [List.length_append]
        omega
      rw [Dma.byte, if_neg hbuf, hbytes, List.getD_eq_getElem?_getD,
        List.getElem?_eq_getElem hlen, Option.getD_some]
    rw [hloop, selectConfiguration_eq block.2 hendpointLoop hpool hvalue, configured_eq]

/-- The descriptors behind the configuration descriptor of a boot mouse: its
interface, a HID descriptor and one interrupt-IN endpoint. -/
def mouseDescriptors : List Descriptor :=
  [[9, 4, 0, 0, 1, 3, 1, 2, 0], [9, 33, 17, 1, 0, 1, 34, 52, 0], [7, 5, 0x81, 3, 8, 0, 10]]

/-- The configuration descriptor of a boot mouse. -/
def mouseConfiguration : Descriptor := [9, 2, 34, 0, 1, 1, 0, 160, 50]

/-- The configuration that a boot mouse sends: the mouse gets its one endpoint and configuration
1 is requested. -/
theorem initializePhase2_wellFormed_mouse : ∃ (m : Dma) (dev : Device) (pool pool' : Usb.Pool),
    dev.numEpConfigs = 1 ∧
      initializePhase2 m ⟨false, true⟩ (Device.new 0x200040 1) pool 0x2000c8 34 =
        (dev.setConfiguration kDefaultControlPipeID 1).map fun x => (x.1, x.2, pool') := by
  let m : Dma := ⟨fun _ => Trb.zero, fun _ => (mouseConfiguration :: mouseDescriptors).flatten⟩
  have hwf : ∀ d ∈ mouseConfiguration :: mouseDescriptors, d.WellFormed := by
    intro d hd
    rcases List.mem_cons.mp hd with rfl | hd
    · exact ⟨by decide, by decide, by decide, by decide, by decide⟩
    · fin_cases hd <;> exact ⟨by decide, by decide, by decide, by decide, by decide⟩
  have hbytes : m.bytes 0x2000c8 = (mouseConfiguration :: mouseDescriptors).flatten := rfl
  have hpool : ((Usb.Pool.init Usb.samplePool).allocMem hidSizeOf 0 0).1 ≠ nullptr := by decide
  have hendpoints : ∀ i kind after, firstSupported mouseDescriptors = some (i, kind, after) →
      (endpointsOf after).length = i.interface.numEndpoints.toNat ∧
        i.interface.numEndpoints.toNat ≤ 16 := by
    intro i kind after hfirst
    cases hfirst
    exact ⟨by decide, by decide⟩
  refine ⟨m, _, Usb.Pool.init Usb.samplePool, _, ?_, (initializePhase2_wellFormed (by decide)
    hbytes hwf (by decide) hpool hendpoints).2 _ _ _ rfl⟩
  rfl

end Mikanos.Xhci.Device
