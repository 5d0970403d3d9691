import Mikanos.Usb.DescriptorWalk

/-!
# Reading inside the received data, and coming to an end

A device decides which bytes `InitializePhase2` finds.  The two results of this
module say for which bytes it reads nothing but received data, and for which
bytes it returns.

To tell a read outside the received data from one inside, it is run on a memory
that holds nothing else (`received`): there a read outside is the fault
`outOfBounds`, and `endOfData` is the use of the null pointer that `Next` returns
at the end.  The faults `tableOverflow`, a 17th endpoint written over the members
behind `ep_configs_`, and `nullDereference`, a class driver constructed at address
null, end the model's walk too, but not the code's: nothing is promised about what
it reads from there on, so they count as leaving the received data.  `Contained`
lists what has to be there: at each step of the walk the fields that the step reads,
as many endpoint descriptors as are announced, and a free entry for each.

A length byte 0 keeps the walk where it is.  That is harmless only at an endpoint
descriptor, which is then taken again and again until enough of them are counted
(`Moves`).  A walk that is contained and moves comes to its end (`Progresses`).
-/

namespace Mikanos.Xhci.Device

open Mikanos.Usb

/-- Descriptor number `k + 1` is the first supported interface. -/
structure FirstInterface (b : List (BitVec 8)) (len k : Nat) : Prop where
  skips : ∀ j, j < k → Skips b len j
  inside : offset b (k + 1) < len
  fits : (descriptor b (k + 1)).HeaderFits
  supported : (descriptor b (k + 1)).Supported

/-- The number of endpoints that descriptor number `k` announces. -/
def announced (b : List (BitVec 8)) (k : Nat) : Nat :=
  (descriptor b k).interface.numEndpoints.toNat

/-- There is memory for a class driver. -/
abbrev DriverFits (pool : Usb.Pool) : Prop := (pool.allocMem hidSizeOf 0 0).1 ≠ nullptr

section Phase2

variable {m : Dma} {obs : DefaultObservers} {dev : Device} {pool : Usb.Pool} {buf : Addr}
  {len k : Nat}

/-- The interface stops the search. -/
theorem FirstInterface.stops {b : List (BitVec 8)} (h : FirstInterface b len k) :
    ¬ Skips b len k := fun hskips => hskips.unsupported h.supported

theorem initializePhase2_eq (htype : m.byte buf 1 = .ok kConfigurationDescriptor) :
    initializePhase2 m obs dev pool buf len =
      (interfaceLoop m obs (len + 257) (len + 257) (readerAt m buf len 0) dev pool).bind
        fun x => selectConfiguration m buf x.1 x.2.1 x.2.2 := by
  have hfuel : loopFuelOf (len : Int) = len + 257 := by rw [loopFuelOf, Int.toNat_natCast]
  rw [initializePhase2, htype, hfuel]
  generalize len + 257 = fuel
  rfl

variable (obs dev) in
/-- From the first supported interface on, the loop over its endpoints decides how the walk
ends: the class driver is there and no endpoint is recorded yet. -/
theorem interfaceLoop_interface (hbuf : buf ≠ nullptr) (hlen : len ≤ (m.bytes buf).length)
    {block : Addr × Usb.Pool} (hblock : pool.allocMem hidSizeOf 0 0 = block)
    (hpool : block.1 ≠ nullptr) (h : FirstInterface (m.bytes buf) len k) {fuel : Nat}
    (hfuel : len < fuel) : ∃ dev₁ : Device, dev₁.numEpConfigs = 0 ∧
      dev₁.transferRings = dev.transferRings ∧
      interfaceLoop m obs fuel fuel (readerAt m buf len 0) dev pool =
        (endpointLoop m (descriptor (m.bytes buf) (k + 1)).interface.numEndpoints block.1 fuel
          (readerAt m buf len (k + 1)) dev₁).bind fun y => .ok (block.1, y.2, block.2) := by
  have hpos : 0 < (m.bytes buf).length := by
    have hinside := h.inside
    omega
  cases search_end obs dev pool hbuf hlen hpos hblock hfuel h.skips h.stops with
  | nothing hend => exact absurd h.inside (Nat.not_lt.mpr hend)
  | cutOff _ hcut => exact absurd h.fits hcut
  | noMemory _ _ _ hnull => exact absurd hnull hpool
  | interface kind _ _ _ _ _ hresult =>
      exact ⟨withDriver obs dev block.1 kind (descriptor (m.bytes buf) (k + 1)).interface, rfl, rfl,
        hresult⟩

/-- The ring of the default control pipe can be pushed to, if there is one. -/
def PipeUsable (dev : Device) : Prop := ∀ tr, dev.transferRings 0 = some tr → tr.buf ≠ nullptr

/-- **The request for a configuration** returns exactly if the control pipe can be
used; a ring without buffer is the only thing in its way. -/
theorem setConfiguration_pipe (dev : Device) (value : BitVec 8) :
    (PipeUsable dev ∧ ∃ result, dev.setConfiguration kDefaultControlPipeID value = .ok result) ∨
      (¬ PipeUsable dev ∧
        dev.setConfiguration kDefaultControlPipeID value = .error .nullDereference) := by
  have hdci : dciIndex kDefaultControlPipeID.address = .ok 0 := rfl
  have hwaiter : dev.addWaiter (setConfigurationData value) nullptr = dev :=
    if_neg (not_not.mpr rfl)
  unfold setConfiguration controlOut controlTransfer
  dsimp only
  rw [if_neg (by decide), hdci, hwaiter]
  simp only [bind, bind_ok]
  cases hring : dev.transferRings 0 with
  | none =>
      refine Or.inl ⟨fun tr htr => ?_, _, rfl⟩
      rw [hring] at htr
      cases htr
  | some tr =>
      dsimp only
      by_cases htr : tr.buf = nullptr
      · refine Or.inr ⟨fun husable => husable tr hring htr, ?_⟩
        rw [pushTransfer, if_neg (not_not.mpr rfl), pushNoData, Ring.push, if_pos htr]
        rfl
      · refine Or.inl ⟨fun tr' htr' => ?_, ?_⟩
        · rw [hring] at htr'
          cases htr'
          exact htr
        · obtain ⟨setupPosition, tr₁, hsetup, htr₁⟩ :=
            Ring.push_of_ne htr (makeSetupStageTRB (setConfigurationData value) kNoDataStage)
          obtain ⟨statusPosition, tr₂, hstatus, -⟩ :=
            Ring.push_of_ne htr₁ (interruptOnCompletion (statusDirection statusStageTRB))
          rw [pushTransfer, if_neg (not_not.mpr rfl), pushNoData, hsetup]
          simp only [bind, bind_ok, hstatus]
          exact ⟨_, rfl⟩

/-- **The end of `InitializePhase2`**, if the configuration value is there: with a usable
control pipe the request is made and the call returns, and otherwise it faults on the ring. -/
theorem selectConfiguration_pipe {classDriver : Addr} (hbuf : buf ≠ nullptr)
    (hdriver : classDriver ≠ nullptr) (hvalue : 6 ≤ (m.bytes buf).length) (dev : Device)
    (pool : Usb.Pool) :
    (PipeUsable dev ∧ ∃ result, selectConfiguration m buf classDriver dev pool = .ok result) ∨
      (¬ PipeUsable dev ∧
        selectConfiguration m buf classDriver dev pool = .error .nullDereference) := by
  rcases byte_cases (m := m) hbuf 5 with ⟨-, hbyte⟩ | ⟨hge, -⟩
  · unfold selectConfiguration
    rw [if_neg hdriver, hbyte]
    simp only [bind, bind_ok]
    rcases setConfiguration_pipe { dev with initializePhase := 3 } ((m.bytes buf).getD 5 0) with
      ⟨husable, result, hset⟩ | ⟨hunusable, hset⟩
    · rw [hset]
      exact Or.inl ⟨husable, _, rfl⟩
    · rw [hset]
      exact Or.inr ⟨hunusable, rfl⟩
  · omega

/-- The request for a configuration has no loop, so it always comes to an end. -/
theorem selectConfiguration_ne_endlessLoop (hbuf : buf ≠ nullptr) (classDriver : Addr)
    (dev : Device) (pool : Usb.Pool) :
    selectConfiguration m buf classDriver dev pool ≠ .error .endlessLoop := by
  unfold selectConfiguration
  by_cases hdriver : classDriver = nullptr
  · rw [if_pos hdriver]
    exact fun h => by cases h
  · rw [if_neg hdriver]
    rcases byte_cases (m := m) hbuf 5 with ⟨-, hbyte⟩ | ⟨-, hbyte⟩
    · simp only [hbyte, bind, bind_ok]
      rcases setConfiguration_pipe { dev with initializePhase := 3 } ((m.bytes buf).getD 5 0) with
        ⟨-, result, hset⟩ | ⟨-, hset⟩
      · rw [hset]
        exact fun h => by cases h
      · rw [hset]
        exact fun h => by cases h
    · rw [hbyte]
      exact fun h => by cases h

/-- The endpoints taken over leave the rings alone. -/
theorem transferRings_withEndpoints (classDriver : Addr) (confs : List EndpointConfig)
    (dev : Device) : (withEndpoints dev classDriver confs).transferRings = dev.transferRings := by
  rw [withEndpoints_eq]

/-- An interface that fits is followed by the configuration value, at byte 5. -/
theorem FirstInterface.value {b : List (BitVec 8)} (h : FirstInterface b len k) :
    6 ≤ b.length := by
  have hsize := h.fits.2 h.supported.1
  rw [length_descriptor] at hsize
  omega

end Phase2

/-! ## Reading received data only -/

/-- The memory in which the buffer ends behind the received bytes. -/
def received (m : Dma) (buf : Addr) (len : Nat) : Dma :=
  { m with bytes := fun p => if p = buf then (m.bytes p).take len else m.bytes p }

/-- What ends a walk that has read inside only: the loops of the source never end,
or, when everything is read, the configuration is requested on a control ring
without buffer. -/
def Inside (dev : Device) (pool : Usb.Pool) (f : Fault) : Prop :=
  f = .endlessLoop ∨ (f = .nullDereference ∧ DriverFits pool ∧ ¬ PipeUsable dev)

/-- `InitializePhase2` reads received bytes only, never dereferences the null pointer
that `Next` returns at the end, and does nothing after which the source promises
nothing about what it reads: it writes no entry behind `ep_configs_` and constructs
no class driver at address null. -/
def ReadsInside (m : Dma) (obs : DefaultObservers) (dev : Device) (pool : Usb.Pool) (buf : Addr)
    (len : Nat) : Prop :=
  ∀ f, initializePhase2 (received m buf len) obs dev pool buf len = .error f → Inside dev pool f

/-- What the walk over `len` of the bytes `b` needs is there. -/
structure Contained (b : List (BitVec 8)) (len : Nat) (pool : Usb.Pool) : Prop where
  /-- The type of the configuration descriptor. -/
  type : 2 ≤ b.length
  /-- The type of each descriptor up to the first supported interface, and the
  fields of each interface. -/
  headers : ∀ k, (∀ j, j < k → Skips b len j) → offset b (k + 1) < len →
    (descriptor b (k + 1)).HeaderFits
  /-- Memory for the class driver of that interface. -/
  memory : ∀ k, FirstInterface b len k → DriverFits pool
  /-- As many descriptors as it takes to see the endpoints that are announced, with
  the fields of endpoint and HID descriptors, and a free entry for each endpoint. -/
  endpoints : ∀ k, FirstInterface b len k → ∀ j,
    (∀ t, t < j → Takes b len (k + 1) (announced b (k + 1)) t) →
    (endpointsSeen b (k + 1) j).length < announced b (k + 1) →
    Takes b len (k + 1) (announced b (k + 1)) j

section ReadingInside

variable {m : Dma} {obs : DefaultObservers} {dev : Device} {pool : Usb.Pool} {buf : Addr}
  {len : Nat}

theorem bytes_received (m : Dma) (buf : Addr) (len : Nat) :
    (received m buf len).bytes buf = (m.bytes buf).take len := if_pos rfl

/-- **A contained walk** ends by returning, by never ending, or on the control ring: the faults
of a read or a write outside the buffers are ruled out, step by step. -/
theorem fault_of_contained (hbuf : buf ≠ nullptr) (hlen : len ≤ (m.bytes buf).length)
    (htype : m.byte buf 1 = .ok kConfigurationDescriptor)
    (h : Contained (m.bytes buf) len pool) {f : Fault}
    (hfault : initializePhase2 m obs dev pool buf len = .error f) :
    f = .endlessLoop ∨ (f = .nullDereference ∧
      (∃ k, FirstInterface (m.bytes buf) len k) ∧ ¬ PipeUsable dev) := by
  have hpos : 0 < (m.bytes buf).length := length_pos_of_byte hbuf htype
  rw [initializePhase2_eq htype] at hfault
  obtain ⟨block, hblock⟩ : ∃ block, pool.allocMem hidSizeOf 0 0 = block := ⟨_, rfl⟩
  rcases Cursor.forever_or_first (Skips (m.bytes buf) len) with hskips | ⟨k, hskips, hstop⟩
  · rw [interfaceLoop_endless hbuf hlen hpos hskips] at hfault
    cases hfault
    exact Or.inl rfl
  · cases search_end obs dev pool hbuf hlen hpos hblock (by omega : len < len + 257) hskips
      hstop with
    | nothing _ hresult =>
        rw [hresult] at hfault
        cases hfault
    | cutOff hinside hcut => exact absurd (h.headers k hskips hinside) hcut
    | noMemory hinside hfits hsupported hpool =>
        have hmemory := h.memory k ⟨hskips, hinside, hfits, hsupported⟩
        rw [DriverFits, hblock] at hmemory
        exact absurd hpool hmemory
    | interface kind hinside hfits hsupported hkind hpool hresult =>
        rw [hresult] at hfault
        have hfirst : FirstInterface (m.bytes buf) len k := ⟨hskips, hinside, hfits, hsupported⟩
        have hcontained := h.endpoints k hfirst
        generalize hdev₁ : withDriver obs dev block.1 kind _ = dev₁ at hfault
        have hcount : dev₁.numEpConfigs = 0 := by rw [← hdev₁]; rfl
        have hrings : dev₁.transferRings = dev.transferRings := by rw [← hdev₁]; rfl
        rcases Cursor.forever_or_first (Takes (m.bytes buf) len (k + 1)
          (announced (m.bytes buf) (k + 1))) with htakes | ⟨j, htakes, hends⟩
        · rw [endpointLoop_endless hbuf hlen hinside _ hcount htakes] at hfault
          cases hfault
          exact Or.inl rfl
        · cases endpoints_end hbuf hlen hinside block.1 hcount (by omega : len + 16 < len + 257)
            htakes hends with
          | done _ hresult' =>
              rw [hresult', bind_ok, bind_ok] at hfault
              rcases selectConfiguration_pipe hbuf hpool hfirst.value _ block.2 with
                ⟨-, result, hselect⟩ | ⟨hunusable, hselect⟩
              · rw [hselect] at hfault
                cases hfault
              · rw [hselect] at hfault
                cases hfault
                unfold PipeUsable at hunusable
                rw [transferRings_withEndpoints, hrings] at hunusable
                exact Or.inr ⟨rfl, ⟨k, hfirst⟩, hunusable⟩
          | ended hmore => exact absurd (hcontained j htakes hmore) hends
          | cutOff hmore => exact absurd (hcontained j htakes hmore) hends
          | full hmore => exact absurd (hcontained j htakes hmore) hends

variable (obs dev) in
/-- A walk that comes to a supported interface has memory for its class driver, or it faults at
address null before the control ring is used, which is not inside. -/
theorem driverFits_of_inside (hbuf : buf ≠ nullptr) (hlen : len ≤ (m.bytes buf).length)
    (htype : m.byte buf 1 = .ok kConfigurationDescriptor)
    (h : ∀ f, initializePhase2 m obs dev pool buf len = .error f → Inside dev pool f)
    {k : Nat} (hfirst : FirstInterface (m.bytes buf) len k) : DriverFits pool := by
  have hpos : 0 < (m.bytes buf).length := length_pos_of_byte hbuf htype
  obtain ⟨block, hblock⟩ : ∃ block, pool.allocMem hidSizeOf 0 0 = block := ⟨_, rfl⟩
  by_contra hfull
  have hnull : block.1 = nullptr := by
    rw [← hblock]
    exact hfull
  rw [initializePhase2_eq htype] at h
  cases search_end obs dev pool hbuf hlen hpos hblock (by omega : len < len + 257) hfirst.skips
    hfirst.stops with
  | nothing hend => exact absurd hfirst.inside (Nat.not_lt.mpr hend)
  | cutOff _ hcut => exact hcut hfirst.fits
  | noMemory _ _ _ _ hresult =>
      rw [hresult] at h
      rcases h .nullDereference rfl with hf | ⟨-, hroom, -⟩
      · cases hf
      · exact hroom hfull
  | interface _ _ _ _ _ hpool => exact hpool hnull

variable (obs dev) in
/-- The walk is contained if it ends in no other way: each step that is not contained leads to a
fault that is not inside. -/
theorem contained_of_inside (hbuf : buf ≠ nullptr) (hlen : len ≤ (m.bytes buf).length)
    (htype : m.byte buf 1 = .ok kConfigurationDescriptor)
    (h : ∀ f, initializePhase2 m obs dev pool buf len = .error f → Inside dev pool f) :
    Contained (m.bytes buf) len pool := by
  have htwo : 2 ≤ (m.bytes buf).length := by
    rcases byte_cases (m := m) hbuf 1 with ⟨hlt, -⟩ | ⟨-, hbyte⟩
    · exact hlt
    · rw [hbyte] at htype
      cases htype
  have hpos : 0 < (m.bytes buf).length := by omega
  obtain ⟨block, hblock⟩ : ∃ block, pool.allocMem hidSizeOf 0 0 = block := ⟨_, rfl⟩
  have hmemory : ∀ k, FirstInterface (m.bytes buf) len k → DriverFits pool :=
    fun k hfirst => driverFits_of_inside obs dev hbuf hlen htype h hfirst
  have hnotOutside : ∀ f, f ≠ .endlessLoop → f ≠ .nullDereference →
      initializePhase2 m obs dev pool buf len ≠ .error f := by
    intro f hends hnull hf
    rcases h f hf with hf | ⟨hf, -⟩
    · exact hends hf
    · exact hnull hf
  rw [initializePhase2_eq htype] at hnotOutside
  constructor
  case type => exact htwo
  case headers =>
    intro k hskips hinside
    by_contra hcut
    have hend := search_end obs dev pool hbuf hlen hpos hblock (by omega : len < len + 257) hskips
      (fun hskip => hcut hskip.fits)
    cases hend with
    | nothing hend => exact absurd hinside (Nat.not_lt.mpr hend)
    | cutOff _ _ hresult =>
        rw [hresult] at hnotOutside
        exact hnotOutside .outOfBounds (by decide) (by decide) rfl
    | noMemory _ hfits => exact hcut hfits
    | interface _ _ hfits => exact hcut hfits
  case memory => exact hmemory
  case endpoints =>
    intro k hfirst j htakes hmore
    have hpool := hmemory k hfirst
    rw [DriverFits, hblock] at hpool
    obtain ⟨dev₁, hcount, -, hloop⟩ := interfaceLoop_interface obs dev hbuf hlen hblock
      hpool hfirst (by omega : len < len + 257)
    rw [hloop] at hnotOutside
    by_contra hends
    cases endpoints_end hbuf hlen hfirst.inside block.1 hcount (by omega : len + 16 < len + 257)
      htakes hends with
    | done hdone => exact absurd hmore (Nat.not_lt.mpr hdone)
    | ended _ _ hresult =>
        rw [hresult] at hnotOutside
        exact hnotOutside .endOfData (by decide) (by decide) rfl
    | cutOff _ _ _ hresult =>
        rw [hresult] at hnotOutside
        exact hnotOutside .outOfBounds (by decide) (by decide) rfl
    | full _ _ _ _ _ hresult =>
        rw [hresult] at hnotOutside
        exact hnotOutside .tableOverflow (by decide) (by decide) rfl

/-- **`InitializePhase2` reads inside the received data** exactly if everything the
walk needs is there.  The buffer may be longer than what was received; its byte 1
is the type of a configuration descriptor. -/
theorem readsInside_iff (hbuf : buf ≠ nullptr) (hlen : len ≤ (m.bytes buf).length)
    (htype : (m.bytes buf)[1]? = some kConfigurationDescriptor) :
    ReadsInside m obs dev pool buf len ↔ Contained ((m.bytes buf).take len) len pool := by
  have hlength : ((received m buf len).bytes buf).length = len := by
    rw [bytes_received, List.length_take, Nat.min_eq_left hlen]
  rw [← bytes_received]
  unfold ReadsInside
  rcases Nat.lt_or_ge len 2 with hshort | htwo
  · -- Not even the type was received.
    have hbyte : (received m buf len).byte buf 1 = .error .outOfBounds := by
      rcases byte_cases (m := received m buf len) hbuf 1 with ⟨hlt, -⟩ | ⟨-, hbyte⟩
      · omega
      · exact hbyte
    have hresult : initializePhase2 (received m buf len) obs dev pool buf len =
        .error .outOfBounds := by
      rw [initializePhase2, hbyte]
      rfl
    constructor
    · intro h
      rcases h _ hresult with hf | ⟨hf, -⟩ <;> cases hf
    · intro h
      have htype := h.type
      omega
  · have hbyte : (received m buf len).byte buf 1 = .ok kConfigurationDescriptor := by
      unfold Dma.byte
      rw [if_neg hbuf, bytes_received, List.getElem?_take_of_lt (by omega), htype]
    have hlen' := Nat.le_of_eq hlength.symm
    constructor
    · exact contained_of_inside obs dev hbuf hlen' hbyte
    · intro h f hfault
      rcases fault_of_contained hbuf hlen' hbyte h hfault with hf | ⟨hf, hfirst, hunusable⟩
      · exact Or.inl hf
      · obtain ⟨k, hfirst⟩ := hfirst
        exact Or.inr ⟨hf, h.memory k hfirst, hunusable⟩

end ReadingInside

/-- A device's memory with one buffer. -/
def bufferOf (bytes : List (BitVec 8)) : Dma := ⟨fun _ => Trb.zero, fun _ => bytes⟩

/-- What the boot mouse sends is read inside, so the walk over it is contained; the condition is
about the bytes and the pool alone. -/
theorem readsInside_iff_mouse :
    ReadsInside (bufferOf (mouseConfiguration :: mouseDescriptors).flatten) ⟨false, true⟩
        (Device.new 0x200040 1) (Usb.Pool.init Usb.samplePool) 0x2000c8 34 ∧
      Contained ((mouseConfiguration :: mouseDescriptors).flatten.take 34) 34
        (Usb.Pool.init Usb.samplePool) := by
  have hreturns : returns (initializePhase2
      (received (bufferOf (mouseConfiguration :: mouseDescriptors).flatten) 0x2000c8 34)
      ⟨false, true⟩ (Device.new 0x200040 1) (Usb.Pool.init Usb.samplePool) 0x2000c8 (34 : Nat))
      (fun _ => true) = true := by decide +kernel
  have hinside : ReadsInside (bufferOf (mouseConfiguration :: mouseDescriptors).flatten)
      ⟨false, true⟩ (Device.new 0x200040 1) (Usb.Pool.init Usb.samplePool) 0x2000c8 34 :=
    fun f hf => absurd hf (ne_error_of_returns hreturns f)
  exact ⟨hinside, (readsInside_iff (by decide) (by decide) (by decide)).mp hinside⟩

/-- **A missing endpoint**: the interface announces two endpoints, and one follows.
The null pointer at the end of the data is taken for a descriptor. -/
theorem missing_endpoint : ∃ bytes : List (BitVec 8), bytes.length = 34 ∧
    bytes[1]? = some kConfigurationDescriptor ∧
    ¬ ReadsInside (bufferOf bytes) ⟨false, true⟩ (Device.new 0x200040 1)
      (Usb.Pool.init Usb.samplePool) 0x2000c8 34 := by
  refine ⟨mouseConfiguration ++ [9, 4, 0, 0, 2, 3, 1, 2, 0] ++ [9, 33, 17, 1, 0, 1, 34, 52, 0] ++
    [7, 5, 0x81, 3, 8, 0, 10], by decide, by decide, fun h => ?_⟩
  have hnull := h .endOfData (faults_iff.mp (by decide +kernel))
  rcases hnull with hf | ⟨hf, -⟩ <;> cases hf

/-! ## Coming to an end -/

/-- No length byte 0 keeps the walk where it is. -/
structure Moves (b : List (BitVec 8)) (len : Nat) (pool : Usb.Pool) : Prop where
  /-- Not in the search for an interface, the configuration descriptor included. -/
  search : ∀ k, (∀ j, j < k → Skips b len j) → offset b k < len → bLengthAt b (offset b k) ≠ 0
  /-- And from the interface on, as long as endpoints are missing, only at an
  endpoint descriptor. -/
  endpoints : DriverFits pool → ∀ k, FirstInterface b len k → ∀ j,
    (∀ t, t < j → Takes b len (k + 1) (announced b (k + 1)) t) →
    (endpointsSeen b (k + 1) j).length < announced b (k + 1) →
    bLengthAt b (offset b (k + 1 + j)) = 0 → (descriptor b (k + 1 + j)).type = kEndpointDescriptor

/-- What `InitializePhase2` needs to return: the walk finds what it reads, it moves,
and the configuration of an interface can be requested. -/
structure Progresses (b : List (BitVec 8)) (len : Nat) (dev : Device) (pool : Usb.Pool) :
    Prop where
  contained : Contained b len pool
  moves : Moves b len pool
  pipe : ∀ k, FirstInterface b len k → PipeUsable dev

section Termination

variable {m : Dma} {obs : DefaultObservers} {dev : Device} {pool : Usb.Pool} {buf : Addr}
  {len fuel : Nat} {b : List (BitVec 8)}

/-- Bytes whose second one is the type of a configuration descriptor start with such a
descriptor, and there are at least two of them. -/
theorem configuration_of_byte (hbuf : buf ≠ nullptr)
    (htype : m.byte buf 1 = .ok kConfigurationDescriptor) :
    2 ≤ (m.bytes buf).length ∧ (descriptor (m.bytes buf) 0).type = kConfigurationDescriptor := by
  rcases byte_cases (m := m) hbuf 1 with ⟨hlt, hbyte⟩ | ⟨-, hbyte⟩
  · rw [hbyte] at htype
    refine ⟨hlt, ?_⟩
    rw [Descriptor.type, byteAt_descriptor]
    exact Except.ok.inj htype
  · rw [hbyte] at htype
    cases htype

/-- A search that has come to a descriptor of length 0 goes on forever: it stands at the same
descriptor in every later step. -/
theorem skips_of_stall (htwo : 2 ≤ b.length)
    (hconf : (descriptor b 0).type = kConfigurationDescriptor) {k : Nat}
    (hskips : ∀ j, j < k → Skips b len j) (hinside : offset b k < len)
    (hstall : bLengthAt b (offset b k) = 0) : ∀ j, Skips b len j := by
  have hpassed : (descriptor b k).HeaderFits ∧ ¬ (descriptor b k).Supported := by
    cases k with
    | zero =>
        have hother : (descriptor b 0).type ≠ kInterfaceDescriptor := by
          rw [hconf]
          decide
        refine ⟨⟨?_, fun h => absurd h hother⟩, fun h => hother h.1⟩
        rw [length_descriptor]
        exact htwo
    | succ k =>
        have hskip := hskips k (Nat.lt_succ_self k)
        exact ⟨hskip.fits, hskip.unsupported⟩
  intro j
  rcases Nat.lt_or_ge j k with hlt | hge
  · exact hskips j hlt
  · obtain ⟨hoffset, hsame⟩ := descriptor_stall hstall (j + 1 - k)
    rw [show k + (j + 1 - k) = j + 1 by omega] at hoffset hsame
    exact ⟨hoffset ▸ hinside, hsame ▸ hpassed.1, hsame ▸ hpassed.2⟩

/-- A search that goes on forever has come to a descriptor of length 0, since every other one
takes it closer to the end. -/
theorem stall_of_skips (hskips : ∀ k, Skips b len k) :
    ∃ k, offset b k < len ∧ bLengthAt b (offset b k) = 0 := by
  have hinside : ∀ k, offset b k < len := by
    intro k
    cases k with
    | zero => exact Nat.lt_of_le_of_lt (Nat.zero_le _) (hskips 0).inside
    | succ k => exact (hskips k).inside
  obtain ⟨k, hstall⟩ : ∃ k, bLengthAt b (offset b k) = 0 :=
    Cursor.exists_stall fun k => Nat.le_of_lt (hinside k)
  exact ⟨k, hinside k, hstall⟩

/-- A search for endpoints that goes on forever has come to a descriptor of length 0 and of
another type, since endpoints are counted. -/
theorem stall_of_takes {i n : Nat} (hfirst : offset b i < len) (htakes : ∀ j, Takes b len i n j) :
    ∃ j, bLengthAt b (offset b (i + j)) = 0 ∧
      (descriptor b (i + j)).type ≠ kEndpointDescriptor := by
  have hinside : ∀ k, offset b k ≤ len := by
    intro k
    rcases Nat.le_total k i with hle | hge
    · exact (Cursor.position_mono hle).trans (Nat.le_of_lt hfirst)
    · rcases Nat.eq_or_lt_of_le hge with rfl | hlt
      · exact Nat.le_of_lt hfirst
      · have htake := (htakes (k - i - 1)).inside
        rw [show i + (k - i - 1) + 1 = k by omega] at htake
        exact Nat.le_of_lt htake
  obtain ⟨k, hstall⟩ : ∃ k, bLengthAt b (offset b k) = 0 := Cursor.exists_stall hinside
  have hstall' : bLengthAt b (offset b (i + k)) = 0 := by
    rw [Nat.add_comm i k, (descriptor_stall hstall i).1]
    exact hstall
  refine ⟨k, hstall', fun htype => ?_⟩
  -- Otherwise each step would see one more endpoint.
  have hseen := length_endpointsSeen_stall hstall' htype n
  have hmore := (htakes (k + n)).more
  omega

variable (obs dev) in
/-- A loop that comes to an end has not been stalled: in the search it would skip the same
descriptor for ever, and behind the interface it would take the same one for ever. -/
theorem moves_of_ends (hbuf : buf ≠ nullptr) (hlen : len ≤ (m.bytes buf).length)
    (htype : m.byte buf 1 = .ok kConfigurationDescriptor) (hfuel : len < fuel)
    (hends : interfaceLoop m obs fuel fuel (readerAt m buf len 0) dev pool ≠
      .error .endlessLoop) : Moves (m.bytes buf) len pool := by
  obtain ⟨htwo, hconf⟩ := configuration_of_byte hbuf htype
  have hpos : 0 < (m.bytes buf).length := by omega
  obtain ⟨block, hblock⟩ : ∃ block, pool.allocMem hidSizeOf 0 0 = block := ⟨_, rfl⟩
  constructor
  case search =>
    intro k hskips hinside hstall
    exact hends (interfaceLoop_endless hbuf hlen hpos
      (skips_of_stall htwo hconf hskips hinside hstall) fuel fuel 0)
  case endpoints =>
    intro hpool k hfirst j htakes hmore hstall
    by_contra hother
    rw [DriverFits, hblock] at hpool
    obtain ⟨dev₁, hcount, -, hloop⟩ := interfaceLoop_interface obs dev hbuf hlen hblock hpool
      hfirst hfuel
    have hpassed : offset (m.bytes buf) (k + 1 + j) < len ∧
        (descriptor (m.bytes buf) (k + 1 + j)).EndpointFits := by
      rcases Nat.eq_zero_or_pos j with rfl | hj
      · have hinterface := hfirst.supported.1
        refine ⟨hfirst.inside, hfirst.fits.1, fun h => ?_, fun h => ?_⟩
        · exact absurd (hinterface.symm.trans h) (by decide)
        · exact absurd (hinterface.symm.trans h) (by decide)
      · exact takes_last htakes hj
    have hforever : ∀ t, Takes (m.bytes buf) len (k + 1) (announced (m.bytes buf) (k + 1)) t := by
      intro t
      rcases Nat.lt_or_ge t j with hlt | hge
      · exact htakes t hlt
      · have htake := takes_stall hstall hother hpassed.1 hpassed.2 hmore (t - j)
        rwa [show j + (t - j) = t by omega] at htake
    rw [endpointLoop_endless hbuf hlen hfirst.inside _ hcount hforever] at hloop
    exact hends hloop

variable (obs dev) in
/-- A walk that nothing stalls comes to an end, in the search or at the endpoints, with fuel for
each byte of the buffer and each entry of the table. -/
theorem ends_of_moves (hbuf : buf ≠ nullptr) (hlen : len ≤ (m.bytes buf).length)
    (hpos : 0 < (m.bytes buf).length) (hfuel : len + 16 < fuel)
    (h : Moves (m.bytes buf) len pool) :
    interfaceLoop m obs fuel fuel (readerAt m buf len 0) dev pool ≠ .error .endlessLoop := by
  obtain ⟨block, hblock⟩ : ∃ block, pool.allocMem hidSizeOf 0 0 = block := ⟨_, rfl⟩
  rcases Cursor.forever_or_first (Skips (m.bytes buf) len) with hskips | ⟨k, hskips, hstop⟩
  · obtain ⟨k, hinside, hstall⟩ := stall_of_skips hskips
    exact absurd hstall (h.search k (fun j _ => hskips j) hinside)
  · cases search_end obs dev pool hbuf hlen hpos hblock (by omega : len < fuel) hskips hstop with
    | nothing _ hresult =>
        rw [hresult]
        exact fun hends => by cases hends
    | cutOff _ _ hresult =>
        rw [hresult]
        exact fun hends => by cases hends
    | noMemory _ _ _ _ hresult =>
        rw [hresult]
        exact fun hends => by cases hends
    | interface kind hinside hfits hsupported hkind hpool hresult =>
        have hfirst : FirstInterface (m.bytes buf) len k := ⟨hskips, hinside, hfits, hsupported⟩
        have hprogress := h.endpoints (by rw [DriverFits, hblock]; exact hpool) k hfirst
        rw [hresult]
        generalize hdev₁ : withDriver obs dev block.1 kind _ = dev₁
        have hcount : dev₁.numEpConfigs = 0 := by rw [← hdev₁]; rfl
        rcases Cursor.forever_or_first (Takes (m.bytes buf) len (k + 1)
          (announced (m.bytes buf) (k + 1))) with htakes | ⟨j, htakes, hends⟩
        · obtain ⟨j, hstall, hother⟩ := stall_of_takes hinside htakes
          exact absurd (hprogress j (fun t _ => htakes t) (htakes j).more hstall) hother
        · cases endpoints_end hbuf hlen hinside block.1 hcount hfuel htakes hends with
          | done _ hresult' =>
              rw [hresult', bind_ok]
              exact fun hends => by cases hends
          | ended _ _ hresult' =>
              rw [hresult']
              exact fun hends => by cases hends
          | cutOff _ _ _ hresult' =>
              rw [hresult']
              exact fun hends => by cases hends
          | full _ _ _ _ _ hresult' =>
              rw [hresult']
              exact fun hends => by cases hends

variable (obs dev) in
/-- **The loops of `InitializePhase2` run out of fuel** exactly if something stalls
them, however much fuel there is beyond what a walk over the buffer needs. -/
theorem interfaceLoop_moves_iff (hbuf : buf ≠ nullptr) (hlen : len ≤ (m.bytes buf).length)
    (htype : m.byte buf 1 = .ok kConfigurationDescriptor) (hfuel : len + 257 ≤ fuel) :
    interfaceLoop m obs fuel fuel (readerAt m buf len 0) dev pool ≠ .error .endlessLoop ↔
      Moves (m.bytes buf) len pool :=
  ⟨moves_of_ends obs dev hbuf hlen htype (by omega),
    ends_of_moves obs dev hbuf hlen (length_pos_of_byte hbuf htype) (by omega)⟩

/-- `InitializePhase2` runs out of fuel exactly if one of its loops never stops, so the fuel of
the model is no limit of its own. -/
theorem initializePhase2_moves_iff (hbuf : buf ≠ nullptr) (hlen : len ≤ (m.bytes buf).length)
    (htype : m.byte buf 1 = .ok kConfigurationDescriptor) :
    initializePhase2 m obs dev pool buf len ≠ .error .endlessLoop ↔
      Moves (m.bytes buf) len pool := by
  rw [← interfaceLoop_moves_iff obs dev hbuf hlen htype (Nat.le_refl _), initializePhase2_eq htype]
  refine not_congr ⟨fun h => ?_, fun h => ?_⟩
  · cases hloop : interfaceLoop m obs (len + 257) (len + 257) (readerAt m buf len 0) dev pool with
    | error f =>
        rw [hloop] at h
        cases h
        rfl
    | ok result =>
        rw [hloop, bind_ok] at h
        exact absurd h (selectConfiguration_ne_endlessLoop hbuf _ _ _)
  · rw [h]
    rfl

/-- A walk that returns with a class driver has requested the configuration, so the control pipe
has been usable. -/
theorem pipeUsable_of_returns (hbuf : buf ≠ nullptr) (hlen : len ≤ (m.bytes buf).length)
    (htype : m.byte buf 1 = .ok kConfigurationDescriptor) {result : Error × Device × Usb.Pool}
    (hreturns : initializePhase2 m obs dev pool buf len = .ok result) (hpool : DriverFits pool)
    (hfirst : FirstInterface (m.bytes buf) len k) : PipeUsable dev := by
  obtain ⟨block, hblock⟩ : ∃ block, pool.allocMem hidSizeOf 0 0 = block := ⟨_, rfl⟩
  rw [DriverFits, hblock] at hpool
  obtain ⟨dev₁, hcount, hrings, hloop⟩ := interfaceLoop_interface obs dev hbuf hlen hblock hpool
    hfirst (by omega : len < len + 257)
  rw [initializePhase2_eq htype, hloop] at hreturns
  rcases Cursor.forever_or_first (Takes (m.bytes buf) len (k + 1)
    (announced (m.bytes buf) (k + 1))) with htakes | ⟨j, htakes, hends⟩
  · rw [endpointLoop_endless hbuf hlen hfirst.inside _ hcount htakes] at hreturns
    cases hreturns
  · cases endpoints_end hbuf hlen hfirst.inside block.1 hcount (by omega : len + 16 < len + 257)
      htakes hends with
    | done _ hresult =>
        rw [hresult, bind_ok, bind_ok] at hreturns
        rcases selectConfiguration_pipe hbuf hpool hfirst.value _ block.2 with
          ⟨husable, -⟩ | ⟨-, hselect⟩
        · unfold PipeUsable at husable
          rw [transferRings_withEndpoints, hrings] at husable
          exact husable
        · rw [hselect] at hreturns
          cases hreturns
    | ended _ _ hresult =>
        rw [hresult] at hreturns
        cases hreturns
    | cutOff _ _ _ hresult =>
        rw [hresult] at hreturns
        cases hreturns
    | full _ _ _ _ _ hresult =>
        rw [hresult] at hreturns
        cases hreturns

/-- **`InitializePhase2` returns** for a configuration descriptor exactly if its walk
progresses, which is a condition on the bytes received, the control pipe and the pool; and where
the model's loops run out of fuel, they do so with any fuel. -/
theorem initializePhase2_terminates_iff (hbuf : buf ≠ nullptr) (hlen : len ≤ (m.bytes buf).length)
    (htwo : 2 ≤ (m.bytes buf).length) :
    ((∃ result, initializePhase2 m obs dev pool buf len = .ok result) ↔
      ((m.bytes buf)[1]? = some kConfigurationDescriptor →
        Progresses (m.bytes buf) len dev pool)) ∧
    (initializePhase2 m obs dev pool buf len = .error .endlessLoop →
      ∀ fuel, loopFuelOf len ≤ fuel →
        interfaceLoop m obs fuel fuel ⟨buf, len, 0⟩ dev pool = .error .endlessLoop) := by
  have hbyte : ∀ value, (m.bytes buf)[1]? = some value → m.byte buf 1 = .ok value := by
    intro value hvalue
    unfold Dma.byte
    rw [if_neg hbuf, hvalue]
  obtain ⟨type, htype⟩ : ∃ type, (m.bytes buf)[1]? = some type :=
    ⟨_, List.getElem?_eq_getElem (by omega : 1 < (m.bytes buf).length)⟩
  by_cases hconf : type = kConfigurationDescriptor
  · rw [hconf] at htype
    have htype' := hbyte _ htype
    refine ⟨⟨fun hreturns _ => ?_, fun h => ?_⟩, fun hendless fuel hfuel => ?_⟩
    · obtain ⟨result, hresult⟩ := hreturns
      have hnone : ∀ f, initializePhase2 m obs dev pool buf len = .error f → Inside dev pool f := by
        intro f hf
        rw [hresult] at hf
        cases hf
      have hcontained := contained_of_inside obs dev hbuf hlen htype' hnone
      have hends : initializePhase2 m obs dev pool buf len ≠ .error .endlessLoop := by
        rw [hresult]
        exact fun hf => by cases hf
      refine ⟨hcontained, (initializePhase2_moves_iff hbuf hlen htype').mp hends,
        fun k hfirst => ?_⟩
      exact pipeUsable_of_returns hbuf hlen htype' hresult (hcontained.memory k hfirst) hfirst
    · have hprogress := h htype
      cases hresult : initializePhase2 m obs dev pool buf len with
      | ok result => exact ⟨result, rfl⟩
      | error f =>
          rcases fault_of_contained hbuf hlen htype' hprogress.contained hresult with
            rfl | ⟨-, hfirst, hunusable⟩
          · exact absurd hresult ((initializePhase2_moves_iff hbuf hlen htype').mpr hprogress.moves)
          · obtain ⟨k, hfirst⟩ := hfirst
            exact absurd (hprogress.pipe k hfirst) hunusable
    · by_contra hends
      rw [loopFuelOf, Int.toNat_natCast] at hfuel
      have hmoves := (interfaceLoop_moves_iff obs dev hbuf hlen htype' hfuel).mp hends
      exact (initializePhase2_moves_iff hbuf hlen htype').mpr hmoves hendless
  · have hother : initializePhase2 m obs dev pool buf len =
        .ok (.kInvalidDescriptor, dev, pool) := by
      rw [initializePhase2, hbyte _ htype]
      simp only [bind, bind_ok]
      rw [if_pos hconf]
      rfl
    rw [hother]
    refine ⟨⟨fun _ hconf' => ?_, fun _ => ⟨_, rfl⟩⟩, fun hendless => by cases hendless⟩
    rw [htype] at hconf'
    exact absurd (Option.some.inj hconf') hconf

end Termination

/-- The configuration of the boot mouse is parsed to its end, and the condition for that holds
of it. -/
theorem initializePhase2_terminates_iff_mouse :
    (∃ result, initializePhase2 (bufferOf (mouseConfiguration :: mouseDescriptors).flatten)
        ⟨false, true⟩ (Device.new 0x200040 1) (Usb.Pool.init Usb.samplePool) 0x2000c8 (34 : Nat) =
      .ok result) ∧
      Progresses (mouseConfiguration :: mouseDescriptors).flatten 34 (Device.new 0x200040 1)
        (Usb.Pool.init Usb.samplePool) := by
  have hreturns : returns (initializePhase2
      (bufferOf (mouseConfiguration :: mouseDescriptors).flatten) ⟨false, true⟩
      (Device.new 0x200040 1) (Usb.Pool.init Usb.samplePool) 0x2000c8 (34 : Nat))
      (fun _ => true) = true := by decide +kernel
  cases hresult : initializePhase2 (bufferOf (mouseConfiguration :: mouseDescriptors).flatten)
      ⟨false, true⟩ (Device.new 0x200040 1) (Usb.Pool.init Usb.samplePool) 0x2000c8 (34 : Nat) with
  | error f => exact absurd hresult (ne_error_of_returns hreturns f)
  | ok result =>
      refine ⟨⟨result, rfl⟩, ?_⟩
      exact (initializePhase2_terminates_iff (by decide) (by decide) (by decide)).1.mp
        ⟨result, hresult⟩ (by decide)

/-- **A length byte 0** in the configuration descriptor: the cursor never moves,
whatever the fuel. -/
theorem zero_length_descriptor : ∃ bytes : List (BitVec 8), bytes.length = 256 ∧
    bytes[1]? = some kConfigurationDescriptor ∧
    initializePhase2 (bufferOf bytes) ⟨false, true⟩ (Device.new 0x200040 1)
      (Usb.Pool.init Usb.samplePool) 0x2000c8 34 = .error .endlessLoop ∧
    ∀ fuel, interfaceLoop (bufferOf bytes) ⟨false, true⟩ fuel fuel ⟨0x2000c8, 34, 0⟩
      (Device.new 0x200040 1) (Usb.Pool.init Usb.samplePool) = .error .endlessLoop := by
  have hlength : (0 :: 2 :: List.replicate 254 0 : List (BitVec 8)).length = 256 := by
    rw [List.length_cons, List.length_cons, List.length_replicate]
  refine ⟨0 :: 2 :: List.replicate 254 0, hlength, rfl, faults_iff.mp (by decide +kernel),
    fun fuel => ?_⟩
  have hlen : 34 ≤ (0 :: 2 :: List.replicate 254 0 : List (BitVec 8)).length :=
    Nat.le_trans (by decide) (Nat.le_of_eq hlength.symm)
  refine interfaceLoop_endless (by decide) hlen ?_ ?_ fuel fuel 0
  · exact Nat.lt_of_lt_of_eq (by decide) hlength.symm
  · exact skips_of_stall (k := 0) (Nat.le_trans (by decide) (Nat.le_of_eq hlength.symm)) rfl
      (fun j hj => absurd hj (Nat.not_lt_zero j)) (by decide) rfl

end Mikanos.Xhci.Device
