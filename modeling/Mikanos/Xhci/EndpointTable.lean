import Mikanos.Xhci.DeviceRuns

/-!
# The table of endpoints

`ep_configs_` has 16 entries, and the number of endpoints an interface announces
is a byte of the device.  The loop of `InitializePhase2` compares its counter with
that byte only.  A 17th endpoint descriptor is written behind the table, which is
the fault `tableOverflow`.

A run gets there exactly by a configuration descriptor that holds 17 endpoint
descriptors the walk reaches (`Overflows`).  Short of that, the entries that the
later loops read are those of one configuration that the device has sent.
-/

namespace Mikanos.Xhci.Device

open Relation Mikanos.Usb

/-! ## Calls that write no entry -/

section NoOverflow

variable {m : Dma} {dev : Device} {buf : Addr}

/-- A read of a byte may go astray in other ways, but it never writes behind the table of
endpoints. -/
theorem byte_ne_tableOverflow (p : Addr) (i : Nat) : m.byte p i ≠ .error .tableOverflow := by
  unfold Dma.byte
  split
  · intro h
    cases h
  · split
    · intro h
      cases h
    · intro h
      cases h

/-- Indexing the transfer rings by a DCI can go out of bounds, but it never writes behind the
table of endpoints. -/
theorem dciIndex_ne_tableOverflow (dci : Int) : dciIndex dci ≠ .error .tableOverflow := by
  unfold dciIndex
  split
  · intro h
    cases h
  · intro h
    cases h

/-- A call through a pointer to a class driver can be a null dereference, but it never writes
behind the table of endpoints. -/
theorem driverAt_ne_tableOverflow (p : Addr) : dev.driverAt p ≠ .error .tableOverflow := by
  unfold driverAt
  split
  · intro h
    cases h
  · intro h
    cases h

/-- A control transfer can fail on its ring, but it never writes behind the table of endpoints.
-/
theorem controlTransfer_ne_tableOverflow {type : BitVec 2} {dirIn : Bool} {status : Trb}
    {epId : EndpointID} {setupData : SetupData} {len : Int} {issuer : Addr} :
    dev.controlTransfer type dirIn status epId setupData buf len issuer ≠
      .error .tableOverflow := by
  unfold controlTransfer
  dsimp only
  split
  · intro h
    cases h
  · refine bind_ne_error (dciIndex_ne_tableOverflow _) fun i _ => ?_
    split
    · intro h
      cases h
    · refine bind_ne_error (pushTransfer_ne_error (by decide)) fun _ _ h => ?_
      cases h

/-- The requests of the initialization. -/
theorem getDescriptor_ne_tableOverflow {descType descIndex : BitVec 8} {len : Int} :
    dev.getDescriptor kDefaultControlPipeID descType descIndex buf len ≠ .error .tableOverflow := by
  unfold getDescriptor controlIn
  exact controlTransfer_ne_tableOverflow

/-- The request that selects a configuration writes nothing to the table of endpoints. -/
theorem setConfiguration_ne_tableOverflow {value : BitVec 8} :
    dev.setConfiguration kDefaultControlPipeID value ≠ .error .tableOverflow := by
  unfold setConfiguration controlOut
  exact controlTransfer_ne_tableOverflow

/-- A request for a report writes nothing to the table of endpoints. -/
theorem interruptIn_ne_tableOverflow {epId : EndpointID} {len : Int} :
    dev.interruptIn epId buf len ≠ .error .tableOverflow := by
  unfold interruptIn
  refine bind_ne_error (dciIndex_ne_tableOverflow _) fun i _ => ?_
  split
  · intro h
    cases h
  · refine bind_ne_error (Ring.push_ne_error (by decide)) fun _ _ h => ?_
    cases h

/-- The completions of the class drivers do not write to the table. -/
theorem driverOnControlCompleted_ne_tableOverflow (p : Addr) :
    dev.driverOnControlCompleted p ≠ .error .tableOverflow := by
  unfold driverOnControlCompleted
  refine bind_ne_error (driverAt_ne_tableOverflow p) fun d _ => ?_
  split
  · exact interruptIn_ne_tableOverflow
  · intro h
    cases h

/-- The loop of `InitializePhase3` only reads the table of endpoints, so it never writes behind
it. -/
theorem setEndpoints_ne_tableOverflow (n : Nat) : dev.setEndpoints n ≠ .error .tableOverflow := by
  induction n with
  | zero =>
      intro h
      cases h
  | succ n ih =>
      refine bind_ne_error ih fun dev₁ _ => ?_
      split
      · dsimp only
        split
        · refine bind_ne_error ?_ fun _ _ h => ?_
          · unfold driverSetEndpoint
            refine bind_ne_error (driverAt_ne_tableOverflow _) fun _ _ h => ?_
            cases h
          · cases h
        · intro h
          cases h
      · intro h
        cases h

/-- Looking at the type of a descriptor reads its bytes only. -/
theorem isDescriptor_ne_tableOverflow {request : Bool} {kType : BitVec 8} :
    isDescriptor m request buf kType ≠ .error .tableOverflow := by
  unfold isDescriptor
  split
  · refine bind_ne_error (byte_ne_tableOverflow _ _) fun _ _ h => ?_
    cases h
  · intro h
    cases h

/-- The end of phase 2 works with the table as it is then and writes nothing to it. -/
theorem selectConfiguration_ne_tableOverflow {classDriver : Addr} {pool : Usb.Pool} :
    selectConfiguration m buf classDriver dev pool ≠ .error .tableOverflow := by
  unfold selectConfiguration
  split
  · intro h
    cases h
  · refine bind_ne_error (byte_ne_tableOverflow _ _) fun value _ => ?_
    refine bind_ne_error setConfiguration_ne_tableOverflow fun _ _ h => ?_
    cases h

end NoOverflow

/-! ## The 17th endpoint -/

/-- The walk comes to a 17th endpoint descriptor, and more than 16 are announced. -/
def Overflows (b : List (BitVec 8)) (len : Nat) : Prop :=
  ∃ k j, FirstInterface b len k ∧
    (∀ t, t < j → Takes b len (k + 1) (announced b (k + 1)) t) ∧
    (endpointsSeen b (k + 1) j).length = 16 ∧ 16 < announced b (k + 1) ∧
    offset b (k + 1 + j + 1) < len ∧ (descriptor b (k + 1 + j + 1)).EndpointFits ∧
    (descriptor b (k + 1 + j + 1)).type = kEndpointDescriptor

section Overflow

variable {m : Dma} {obs : DefaultObservers} {dev : Device} {pool : Usb.Pool} {buf : Addr}

/-- The loops write behind the table exactly if the walk comes to a 17th endpoint while more of
them are announced, and there was room for the class driver. -/
theorem interfaceLoop_overflows_iff {len fuel : Nat} (hbuf : buf ≠ nullptr)
    (hlen : len ≤ (m.bytes buf).length) (hpos : 0 < (m.bytes buf).length)
    (hfuel : len + 16 < fuel) :
    interfaceLoop m obs fuel fuel (readerAt m buf len 0) dev pool = .error .tableOverflow ↔
      DriverFits pool ∧ Overflows (m.bytes buf) len := by
  obtain ⟨block, hblock⟩ : ∃ block, pool.allocMem hidSizeOf 0 0 = block := ⟨_, rfl⟩
  rw [DriverFits, hblock]
  constructor
  · intro h
    rcases Cursor.forever_or_first (Skips (m.bytes buf) len) with hskips | ⟨k, hskips, hstop⟩
    · rw [interfaceLoop_endless hbuf hlen hpos hskips] at h
      cases h
    · cases search_end obs dev pool hbuf hlen hpos hblock (by omega : len < fuel) hskips hstop with
      | nothing _ hresult =>
          rw [hresult] at h
          cases h
      | cutOff _ _ hresult =>
          rw [hresult] at h
          cases h
      | noMemory _ _ _ _ hresult =>
          rw [hresult] at h
          cases h
      | interface kind hinside hfits hsupported hkind hpool hresult =>
          rw [hresult] at h
          refine ⟨hpool, k, ?_⟩
          generalize hdev₁ : withDriver obs dev block.1 kind _ = dev₁ at h
          have hcount : dev₁.numEpConfigs = 0 := by rw [← hdev₁]; rfl
          rcases Cursor.forever_or_first (Takes (m.bytes buf) len (k + 1)
            (announced (m.bytes buf) (k + 1))) with htakes | ⟨j, htakes, hends⟩
          · rw [endpointLoop_endless hbuf hlen hinside _ hcount htakes] at h
            cases h
          · cases endpoints_end hbuf hlen hinside block.1 hcount hfuel htakes hends with
            | done _ hresult' =>
                rw [hresult'] at h
                cases h
            | ended _ _ hresult' =>
                rw [hresult'] at h
                cases h
            | cutOff _ _ _ hresult' =>
                rw [hresult'] at h
                cases h
            | full hmore hnext hfits' htype hfull _ =>
                have hmax := (length_endpointsSeen_le htakes).1
                have hsixteen := Nat.le_antisymm hmax hfull
                refine ⟨j, ⟨hskips, hinside, hfits, hsupported⟩, htakes, hsixteen, ?_, hnext,
                  hfits', htype⟩
                rw [hsixteen] at hmore
                exact hmore
  · rintro ⟨hpool, k, j, hfirst, htakes, hsixteen, hmore, hnext, hfits, htype⟩
    obtain ⟨dev₁, hcount, -, hloop⟩ := interfaceLoop_interface obs dev hbuf hlen hblock hpool hfirst
      (by omega : len < fuel)
    have hstop : ¬ Takes (m.bytes buf) len (k + 1) (announced (m.bytes buf) (k + 1)) j := by
      intro htake
      have hroom := htake.room htype
      omega
    have hends := endpoints_end hbuf hlen hfirst.inside block.1 hcount hfuel htakes hstop
    rw [← announced] at hends
    cases hends with
    | done hdone => omega
    | ended _ hend => omega
    | cutOff _ _ hcut => exact absurd hfits hcut
    | full _ _ _ _ _ hresult =>
        rw [hloop, hresult]
        rfl

/-- `InitializePhase2` writes behind the table exactly if there is room for the class driver and
the descriptor announces a 17th endpoint that is there. -/
theorem initializePhase2_overflows_iff {len : Int} (hbuf : buf ≠ nullptr)
    (hlen : len ≤ (m.bytes buf).length)
    (htype : m.byte buf 1 = .ok kConfigurationDescriptor) :
    initializePhase2 m obs dev pool buf len = .error .tableOverflow ↔
      DriverFits pool ∧ Overflows (m.bytes buf) len.toNat := by
  have hpos := length_pos_of_byte hbuf htype
  rcases lt_or_ge len 0 with hneg | hnonneg
  · constructor
    · intro h
      refine absurd h ?_
      unfold initializePhase2
      refine bind_ne_error (byte_ne_tableOverflow _ _) fun type htype' => ?_
      rw [htype] at htype'
      cases htype'
      rw [if_neg (by simp), loopFuelOf]
      refine bind_ne_error ?_ fun x _ => selectConfiguration_ne_tableOverflow
      rw [interfaceLoop_negative hneg]
      refine bind_ne_error (byte_ne_tableOverflow _ _) fun _ _ h => ?_
      cases h
    · rintro ⟨-, k, j, hfirst, -⟩
      have hinside := hfirst.inside
      omega
  · obtain ⟨n, rfl⟩ := Int.eq_ofNat_of_zero_le hnonneg
    rw [initializePhase2_eq htype, Int.toNat_natCast, ← interfaceLoop_overflows_iff hbuf
      (by omega) hpos (by omega : n + 16 < n + 257)]
    constructor
    · intro h
      by_contra hloop
      exact bind_ne_error hloop (fun _ _ => selectConfiguration_ne_tableOverflow) h
    · intro h
      rw [h]
      rfl

/-- Outside phase 2 the initialization writes to no table. -/
theorem initializePhase1_ne_tableOverflow : initializePhase1 m dev buf ≠ .error .tableOverflow := by
  unfold initializePhase1
  exact bind_ne_error (byte_ne_tableOverflow _ _) fun _ _ => getDescriptor_ne_tableOverflow

/-- **Phase 3** reads the entries that are there.  So the walk of phase 2 is the only place
where the table can overflow. -/
theorem initializePhase3_ne_tableOverflow : dev.initializePhase3 ≠ .error .tableOverflow := by
  unfold initializePhase3
  refine bind_ne_error (setEndpoints_ne_tableOverflow _) fun _ _ h => ?_
  cases h

/-- The initialization writes behind the table only in its phase 2, at an answer that is a
configuration descriptor. -/
theorem continueInitialize_overflow {setupData : SetupData} {len : Int}
    (h : continueInitialize m obs dev pool setupData buf len = .error .tableOverflow) :
    dev.initializePhase = 2 ∧
      isDescriptor m (setupData.request == kGetDescriptor) buf kConfigurationDescriptor = .ok true ∧
      initializePhase2 m obs dev pool buf len = .error .tableOverflow := by
  unfold continueInitialize at h
  dsimp only at h
  split at h
  · refine absurd h (bind_ne_error isDescriptor_ne_tableOverflow fun isDevice _ => ?_)
    split
    · refine bind_ne_error initializePhase1_ne_tableOverflow fun _ _ h => ?_
      cases h
    · intro h
      cases h
  · split at h
    · rename_i hphase
      cases hanswer : isDescriptor m (setupData.request == kGetDescriptor) buf
          kConfigurationDescriptor with
      | error f =>
          rw [hanswer] at h
          cases h
          exact absurd hanswer isDescriptor_ne_tableOverflow
      | ok isConfiguration =>
          rw [hanswer] at h
          cases isConfiguration with
          | false => cases h
          | true => exact ⟨hphase, rfl, h⟩
    · split at h
      · split at h
        · refine absurd h (bind_ne_error initializePhase3_ne_tableOverflow fun _ _ h => ?_)
          cases h
        · cases h
      · cases h

/-- What the answer to the request for a configuration descriptor shows: the request was one,
and the second byte is the type asked for. -/
theorem isDescriptor_eq_true_iff {setupData : SetupData} {kType : BitVec 8} :
    isDescriptor m (setupData.request == kGetDescriptor) buf kType = .ok true ↔
      buf ≠ nullptr ∧ setupData.request = kGetDescriptor ∧ (m.bytes buf)[1]? = some kType := by
  constructor
  · intro h
    obtain ⟨hrequest, hbyte⟩ := isDescriptor_eq_true h
    refine ⟨?_, hrequest, hbyte⟩
    intro hbuf
    rw [isDescriptor, if_pos (by simpa using hrequest), hbuf] at h
    cases h
  · intro h
    obtain ⟨hbuf, hrequest, hbyte⟩ := h
    have htype : m.byte buf 1 = .ok kType := by
      unfold Dma.byte
      rw [if_neg hbuf, hbyte]
    rw [isDescriptor, if_pos (by simpa using hrequest), htype]
    simp

/-- **A control completion writes behind the table** exactly if it answers the
request for a configuration descriptor, there is memory for a class driver, and the
walk comes to a 17th endpoint. -/
theorem onControlCompleted_overflows_iff {setupData : SetupData} {len : Int}
    (hlen : len ≤ (m.bytes buf).length) :
    onControlCompleted m obs dev pool setupData buf len = .error .tableOverflow ↔
      AnswersConfiguration m dev setupData buf ∧ buf ≠ nullptr ∧ DriverFits pool ∧
        Overflows (m.bytes buf) len.toNat := by
  have hbyteAt : buf ≠ nullptr → (m.bytes buf)[1]? = some kConfigurationDescriptor →
      m.byte buf 1 = .ok kConfigurationDescriptor := by
    intro hbuf hbyte
    unfold Dma.byte
    rw [if_neg hbuf, hbyte]
  constructor
  · intro h
    unfold onControlCompleted at h
    split at h
    · split at h
      · refine absurd h (bind_ne_error (driverOnControlCompleted_ne_tableOverflow _) ?_)
        intro _ _ h
        cases h
      · cases h
    · rename_i hinit
      obtain ⟨hphase, hanswer, hcall⟩ := continueInitialize_overflow h
      obtain ⟨hbuf, hrequest, hbyte⟩ := isDescriptor_eq_true_iff.mp hanswer
      obtain ⟨hpool, hoverflows⟩ :=
        (initializePhase2_overflows_iff hbuf hlen (hbyteAt hbuf hbyte)).mp hcall
      exact ⟨⟨by simpa using hinit, hphase, hrequest, hbyte⟩, hbuf, hpool, hoverflows⟩
  · intro h
    obtain ⟨⟨hinit, hphase, hrequest, hbyte⟩, hbuf, hpool, hoverflows⟩ := h
    have hcall : initializePhase2 m obs dev pool buf len = .error .tableOverflow :=
      (initializePhase2_overflows_iff hbuf hlen (hbyteAt hbuf hbyte)).mpr ⟨hpool, hoverflows⟩
    have hanswer := isDescriptor_eq_true_iff.mpr ⟨hbuf, hrequest, hbyte⟩
    unfold onControlCompleted
    rw [if_neg (by simp [hinit])]
    unfold continueInitialize
    rw [if_neg (by omega), if_pos hphase, hanswer]
    exact hcall

end Overflow

/-! ## Every run -/

/-- The entries that count are those of one configuration that was sent. -/
def Recorded (Sent : List (BitVec 8) → Nat → Prop) (dev : Device) : Prop :=
  dev.numEpConfigs = 0 ∨
    ∃ b len k j, Sent b len ∧ Walked b len k j ∧
      dev.numEpConfigs = (endpointConfigs b k j).length ∧
      ∀ i : Fin 16, i.val < dev.numEpConfigs →
        (endpointConfigs b k j)[i.val]? = some (dev.epConfigs i)

/-- The table that has been taken over. -/
theorem TakenOver.recorded {Sent : List (BitVec 8) → Nat → Prop} {dev : Device}
    {b : List (BitVec 8)} {len k j : Nat} {p : Addr} (hsent : Sent b len)
    (h : TakenOver dev b len k j p) : dev.numEpConfigs ≤ 16 ∧ Recorded Sent dev := by
  refine ⟨?_, Or.inr ⟨b, len, k, j, hsent, h.walked, h.num, h.configs⟩⟩
  rw [h.num, endpointConfigs, List.length_map]
  exact (length_endpointsSeen_le h.walked.takes).1

/-- **The table of endpoints**, in every state that a run reaches: it holds 16
entries at most, and the entries that count are those of a configuration the device
has sent.  The next control completion, whatever it delivers, writes behind the
table exactly if the walk over it comes to a 17th endpoint. -/
theorem endpoint_table {Sent : List (BitVec 8) → Nat → Prop} {self : Addr} {slotId : BitVec 8}
    {dev : Device} (hreached : Reached Sent self slotId dev) :
    dev.numEpConfigs ≤ 16 ∧ Recorded Sent dev ∧
    ∀ (m : Dma) (obs : DefaultObservers) (pool : Usb.Pool) (setupData : SetupData) (buf : Addr)
      (len : Int), len ≤ (m.bytes buf).length →
      (onControlCompleted m obs dev pool setupData buf len = .error .tableOverflow ↔
        AnswersConfiguration m dev setupData buf ∧ buf ≠ nullptr ∧ DriverFits pool ∧
          Overflows (m.bytes buf) len.toNat) := by
  have htable : dev.numEpConfigs ≤ 16 ∧ Recorded Sent dev := by
    cases hreached.stage.1 with
    | started _ _ hnum => exact ⟨by omega, Or.inl hnum⟩
    | selected _ _ hsent htaken => exact htaken.recorded hsent
    | initialized _ _ hsent htaken => exact htaken.recorded hsent
  exact ⟨htable.1, htable.2,
    fun m obs pool setupData buf len hlen => onControlCompleted_overflows_iff hlen⟩

/-- The configuration of the boot mouse takes one entry of the table, which records the endpoint
that was sent. -/
theorem endpoint_table_mouse : ∃ dev, dev.numEpConfigs = 1 ∧ dev.numEpConfigs ≤ 16 ∧
    Recorded (fun b _ => b = (mouseConfiguration :: mouseDescriptors).flatten) dev := by
  have hrun : returns (addressed.bind fun dev => dev.answers
      [(getDescriptorData kDeviceDescriptor, List.replicate 18 1),
        (getDescriptorData kConfigurationDescriptor,
          (mouseConfiguration :: mouseDescriptors).flatten)])
      (fun dev => dev.numEpConfigs == 1) = true := by decide +kernel
  obtain ⟨dev, hdev, hone⟩ := exists_of_returns hrun
  obtain ⟨dev₀, haddressed, hanswers⟩ := bind_eq_ok.mp hdev
  have hreached := answers_reached
    (addressed_reached (fun b _ => b = (mouseConfiguration :: mouseDescriptors).flatten) haddressed)
    (by simp [kConfigurationDescriptor]) hanswers
  obtain ⟨hle, hrecorded, -⟩ := endpoint_table hreached
  exact ⟨dev, by simpa using hone, hle, hrecorded⟩

/-- A configuration with one interface that announces `n` endpoints, and as many
interrupt-IN endpoints behind it. -/
def manyEndpoints (n : Nat) : List (BitVec 8) :=
  mouseConfiguration ++ [9, 4, 0, 0, BitVec.ofNat 8 n, 3, 1, 2, 0] ++
    (List.replicate n [7, 5, 0x81, 3, 8, 0, 10]).flatten

/-- **Seventeen endpoints**: the 137 bytes of such a configuration descriptor make
the driver write behind the table. -/
theorem seventeen_endpoints : (manyEndpoints 17).length = 137 ∧ ∃ dev,
    Reached (fun _ _ => True) 0x200040 1 dev ∧
    onControlCompleted (bufferOf (manyEndpoints 17)) ⟨true, true⟩ dev
      (Usb.Pool.init Usb.samplePool) (getDescriptorData kConfigurationDescriptor) dev.buffer
      (137 : Nat) = .error .tableOverflow := by
  have hrun : returns (addressed.bind fun dev => dev.answers
      [(getDescriptorData kDeviceDescriptor, List.replicate 18 1)])
      (fun dev => faults (onControlCompleted (bufferOf (manyEndpoints 17)) ⟨true, true⟩ dev
        (Usb.Pool.init Usb.samplePool) (getDescriptorData kConfigurationDescriptor) dev.buffer
        (137 : Nat)) .tableOverflow) = true := by decide +kernel
  obtain ⟨dev, hdev, hfaults⟩ := exists_of_returns hrun
  obtain ⟨dev₀, haddressed, hanswers⟩ := bind_eq_ok.mp hdev
  refine ⟨by decide +kernel, dev, ?_, faults_iff.mp hfaults⟩
  exact answers_reached (addressed_reached _ haddressed) (fun _ _ _ => trivial) hanswers

end Mikanos.Xhci.Device
