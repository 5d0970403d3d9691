import Mikanos.Xhci.ControlTransfers

/-!
# The class driver that asked

A class driver passes itself along with a control transfer, and
`event_waiters_` remembers it by the contents of the request.  When the
transfer completes, the driver found there is told.  Its four entries are never
deleted, `Put` takes the first free slot and nothing else, and `Get` finds the
first entry of the request, so whom a completion reaches is decided by the
requests before, not only by the one that completes.

A run is any sequence of requests with an issuer and of completions, with
anything else a device does in between.  A request records the map as it was
when it was made; `Inv` says that its completion reaches the issuer exactly if
that map accepted the entry (`ArrayMap.Accepts`), and a run keeps it.
-/

namespace Mikanos.Xhci

open Relation Mikanos.Usb

namespace Device

/-- `ControlIn` and `ControlOut` register the issuer, whatever comes of them. -/
theorem controlTransfer_waiters {dev dev' : Device} {type : BitVec 2} {dirIn : Bool}
    {status : Trb} {epId : EndpointID} {setupData : SetupData} {buf : Addr} {len : Int}
    {issuer : Addr} {err : Error}
    (h : dev.controlTransfer type dirIn status epId setupData buf len issuer = .ok (err, dev')) :
    dev'.eventWaiters = (dev.addWaiter setupData issuer).eventWaiters ∧
      dev'.isInitialized = (dev.addWaiter setupData issuer).isInitialized := by
  rcases controlTransfer_cases h with rfl | ⟨i, dci, pushed, rfl⟩
  · exact ⟨rfl, rfl⟩
  · exact ⟨rfl, rfl⟩

/-- A request of a class driver. -/
theorem control_waiters {dev dev' : Device} {dirIn : Bool} {setupData : SetupData} {buf : Addr}
    {len : Int} {issuer : Addr} {err : Error} (hissuer : issuer ≠ nullptr)
    (h : dev.control dirIn setupData buf len issuer = .ok (err, dev')) :
    dev'.eventWaiters = dev.eventWaiters.put setupData issuer ∧
      dev'.isInitialized = dev.isInitialized := by
  have hadd : dev.addWaiter setupData issuer
      = { dev with eventWaiters := dev.eventWaiters.put setupData issuer } := if_pos hissuer
  rw [control_eq_transfer] at h
  have hwaiters := controlTransfer_waiters h
  rw [hadd] at hwaiters
  exact hwaiters

/-- Decoding a Transfer Event does not affect the waiters. -/
theorem decodeTransferEvent_waiters (m : Dma) (dev : Device) (trb : Trb) :
    (decodeTransferEvent m dev trb).2.eventWaiters = dev.eventWaiters ∧
      (decodeTransferEvent m dev trb).2.isInitialized = dev.isInitialized := by
  rcases decodeTransferEvent_cases m dev trb with hdecoded | hdecoded
  · rw [hdecoded]
    exact ⟨rfl, rfl⟩
  · rw [hdecoded]
    exact ⟨rfl, rfl⟩

/-- What an initialized device does with a control completion, given the class
driver that waits for it. -/
def passOn (dev : Device) (pool : Pool) : Option Addr → Except Fault (Error × Device × Pool)
  | some w => (dev.driverOnControlCompleted w).map fun result => (result.1, result.2, pool)
  | none => .ok (.kNoWaiter, dev, pool)

/-- A control completion of an initialized device goes to the class driver that `event_waiters_`
holds for its request. -/
theorem onTransferEventReceived_passOn {m : Dma} (obs : DefaultObservers) {dev dev' : Device}
    (pool : Pool) {trb : Trb} {setupData : SetupData} {buf : Addr} {len : Int}
    (hinit : dev.isInitialized = true)
    (hdecode : decodeTransferEvent m dev trb = (.control setupData buf len, dev')) :
    onTransferEventReceived m obs dev pool trb
      = passOn dev' pool (dev'.eventWaiters.get setupData) := by
  have hinit' : dev'.isInitialized = true := by
    have hkept := (decodeTransferEvent_waiters m dev trb).2
    rw [hdecode] at hkept
    exact hkept.trans hinit
  rw [onTransferEventReceived, hdecode]
  simp only [complete, onControlCompleted, if_pos hinit']
  cases dev'.eventWaiters.get setupData with
  | none => rfl
  | some w => exact (map_eq_pure_bind _ (dev'.driverOnControlCompleted w)).symm

end Device

/-! ## Runs of requests and completions -/

/-- A control transfer under way: its request, the class driver that made it,
and `event_waiters_` as it was before. -/
structure Request where
  setupData : SetupData
  issuer : Addr
  waiters : ArrayMap SetupData Addr 4

/-- A device with the transfers that have not completed. -/
structure RequestSystem where
  dev : Device
  outstanding : List Request

namespace RequestSystem

open Device

/-- A device none of whose control transfers is under way. -/
def start (dev : Device) : RequestSystem := ⟨dev, []⟩

/-- What happens to a device.  A class driver makes a request on the default
pipe, with contents that no transfer under way has, and a transfer begins unless
the request is refused; a transfer completes, up to the call of the class
driver; anything else may happen that does not touch `event_waiters_`. -/
inductive Step : RequestSystem → RequestSystem → Prop
  | request {s : RequestSystem} {dirIn : Bool} {setupData : SetupData} {buf : Addr} {len : Int}
      {issuer : Addr} {dev' : Device} (hissuer : issuer ≠ nullptr)
      (hother : ∀ o ∈ s.outstanding, o.setupData ≠ setupData)
      (hcall : s.dev.control dirIn setupData buf len issuer = .ok (.kSuccess, dev')) :
      Step s ⟨dev', s.outstanding ++ [⟨setupData, issuer, s.dev.eventWaiters⟩]⟩
  | refused {s : RequestSystem} {dirIn : Bool} {setupData : SetupData} {buf : Addr} {len : Int}
      {issuer : Addr} {err : Error} {dev' : Device} (hissuer : issuer ≠ nullptr)
      (hother : ∀ o ∈ s.outstanding, o.setupData ≠ setupData) (herr : err ≠ .kSuccess)
      (hcall : s.dev.control dirIn setupData buf len issuer = .ok (err, dev')) :
      Step s { s with dev := dev' }
  | complete {s : RequestSystem} {m : Dma} {trb : Trb} {before after : List Request} {o : Request}
      {buf : Addr} {len : Int} {dev' : Device} (ho : s.outstanding = before ++ o :: after)
      (hdecode : decodeTransferEvent m s.dev trb = (.control o.setupData buf len, dev')) :
      Step s ⟨dev', before ++ after⟩
  | other {s : RequestSystem} {dev' : Device} (hwaiters : dev'.eventWaiters = s.dev.eventWaiters)
      (hinit : dev'.isInitialized = s.dev.isInitialized) : Step s { s with dev := dev' }

/-- The invariant of all runs: for each transfer under way, the map leads to its
issuer exactly if it accepted the entry when the request was made. -/
structure Inv (s : RequestSystem) : Prop where
  isInitialized : s.dev.isInitialized = true
  waiter : ∀ o ∈ s.outstanding,
    s.dev.eventWaiters.get o.setupData = some o.issuer ↔ o.waiters.Accepts o.setupData o.issuer

/-- The invariant depends on `event_waiters_` and `is_initialized_` only. -/
theorem Inv.of_eq {s : RequestSystem} (h : s.Inv) {dev' : Device}
    (hwaiters : dev'.eventWaiters = s.dev.eventWaiters)
    (hinit : dev'.isInitialized = s.dev.isInitialized) : Inv { s with dev := dev' } where
  isInitialized := hinit.trans h.isInitialized
  waiter o ho := by
    have hwaiter := h.waiter o ho
    rw [← hwaiters] at hwaiter
    exact hwaiter

/-- A request leaves the entries of the transfers under way alone, because it
has other contents. -/
theorem Inv.call {s : RequestSystem} (h : s.Inv) {dirIn : Bool} {setupData : SetupData}
    {buf : Addr} {len : Int} {issuer : Addr} {err : Error} {dev' : Device}
    (hissuer : issuer ≠ nullptr) (hother : ∀ o ∈ s.outstanding, o.setupData ≠ setupData)
    (hcall : s.dev.control dirIn setupData buf len issuer = .ok (err, dev')) :
    Inv { s with dev := dev' } := by
  obtain ⟨hwaiters, hinit⟩ := control_waiters hissuer hcall
  refine ⟨hinit.trans h.isInitialized, ?_⟩
  intro o ho
  simp only
  rw [hwaiters, ArrayMap.get_put_of_ne _ (hother o ho)]
  exact h.waiter o ho

/-- **Step lemma.** A request, a completion or its answer keeps the invariant between the map
and the requests outstanding. -/
theorem Inv.step {s s' : RequestSystem} (h : s.Inv) (hstep : Step s s') : s'.Inv := by
  cases hstep with
  | request hissuer hother hcall =>
      have hold := h.call hissuer hother hcall
      refine ⟨hold.isInitialized, ?_⟩
      intro o ho
      rcases List.mem_append.mp ho with ho | ho
      · exact hold.waiter o ho
      · rw [List.mem_singleton.mp ho]
        simp only
        rw [(control_waiters hissuer hcall).1]
        exact ArrayMap.get_put_self_iff
  | refused hissuer hother _ hcall => exact h.call hissuer hother hcall
  | @complete m trb before after o buf len dev' ho hdecode =>
      obtain ⟨hwaiters, hinit⟩ := decodeTransferEvent_waiters m s.dev trb
      rw [hdecode] at hwaiters hinit
      have hold := h.of_eq hwaiters hinit
      refine ⟨hold.isInitialized, ?_⟩
      intro x hx
      apply hold.waiter x
      simp only
      rw [ho]
      rcases List.mem_append.mp hx with hx | hx
      · exact List.mem_append_left _ hx
      · exact List.mem_append_right _ (List.mem_cons_of_mem o hx)
  | other hwaiters hinit => exact h.of_eq hwaiters hinit

/-- **Run lemma.** -/
theorem inv_of_run {dev : Device} (hinit : dev.isInitialized = true) {s : RequestSystem}
    (hrun : ReflTransGen Step (start dev) s) : s.Inv := by
  induction hrun with
  | refl => exact ⟨hinit, fun o ho => absurd ho List.not_mem_nil⟩
  | tail _ hstep ih => exact ih.step hstep

/-- **Whom a completion reaches.**  In every run of an initialized device, the
completion of a transfer is passed to the driver `event_waiters_` holds for it,
and this is the one that issued the transfer exactly if the map accepted the
entry when the request was made. -/
theorem completion_reaches_issuer_iff {dev : Device} (hinit : dev.isInitialized = true)
    {s : RequestSystem} (hrun : ReflTransGen Step (start dev) s) :
    ∀ o ∈ s.outstanding, ∀ m obs pool trb buf len dev',
      decodeTransferEvent m s.dev trb = (.control o.setupData buf len, dev') →
        onTransferEventReceived m obs s.dev pool trb
            = passOn dev' pool (dev'.eventWaiters.get o.setupData) ∧
          (dev'.eventWaiters.get o.setupData = some o.issuer ↔
            o.waiters.Accepts o.setupData o.issuer) := by
  intro o ho m obs pool trb buf len dev' hdecode
  have h := inv_of_run hinit hrun
  refine ⟨onTransferEventReceived_passOn obs pool h.isInitialized hdecode, ?_⟩
  obtain ⟨hwaiters, hinit'⟩ := decodeTransferEvent_waiters m s.dev trb
  rw [hdecode] at hwaiters hinit'
  exact (h.of_eq hwaiters hinit').waiter o ho

/-! ## Requests served one after another -/

/-- A success event for the TRB at an address. -/
def successEvent (ioc : Addr) : Trb := (Trb.zero.setParameter ioc).setBits 2 24 (1 : BitVec 8)

theorem successEvent_parameter (ioc : Addr) : (successEvent ioc).parameter = ioc := by
  have hparameter : (successEvent ioc).parameter = (Trb.zero.setParameter ioc).parameter := by
    apply Trb.parameter_congr
    · exact Trb.data_setBits_of_ne _ _ _ (by decide)
    · exact Trb.data_setBits_of_ne _ _ _ (by decide)
  rw [hparameter, Trb.parameter_setParameter]

theorem successEvent_code (ioc : Addr) : eventCompletionCode (successEvent ioc) = 1 :=
  Trb.bits_setBits_same _ _ _ _ (by decide)

theorem successEvent_length (ioc : Addr) : eventTransferLength (successEvent ioc) = 0 := by
  rw [eventTransferLength, successEvent, Trb.bits_setBits_of_disjoint _ _ _ _ _ _ (by decide),
    Trb.bits_setParameter_of_ne _ _ _ _ (by decide) (by decide)]
  rfl

/-- Memory of which nothing is read. -/
def blankDma : Dma := ⟨fun _ => Trb.zero, fun _ => []⟩

/-- A device with its control ring and no control transfer under way. -/
def Idle (dev : Device) : Prop :=
  ∃ s tr history, ControlSystem.Inv s tr history ∧ s.dev = dev ∧ s.outstanding = []

/-- An idle device accepts a request without data, and is idle again when its
success event has been decoded. -/
theorem Idle.serve {dev : Device} (h : Idle dev) (setupData : SetupData) (issuer : Addr) :
    ∃ dev₁ trb dev₂, dev.control false setupData nullptr 0 issuer = .ok (.kSuccess, dev₁) ∧
      (∀ m, decodeTransferEvent m dev₁ trb = (.control setupData nullptr 0, dev₂)) ∧
      Idle dev₂ := by
  obtain ⟨s, tr, history, hinv, rfl, hnone⟩ := h
  obtain ⟨pushed, dev₁, hpush, hcall⟩ := hinv.can_request false setupData nullptr 0 issuer
  have hwindow : ∀ o ∈ s.outstanding, s.pushes + trbCount nullptr ≤ o.first + 31 := by
    rw [hnone]
    exact fun o ho => absurd ho List.not_mem_nil
  obtain ⟨tr₁, history₁, hinv₁⟩ := hinv.request (le_refl 0) (by decide) hwindow hpush hcall
  rw [hnone, List.nil_append] at hinv₁
  have hres : ((eventTransferLength (successEvent pushed.1)).toNat : Int) ≤ 0 := by
    rw [successEvent_length]
    decide
  have hdecode := fun m => hinv₁.decode m (List.mem_singleton_self _)
    (successEvent_parameter pushed.1) (Or.inl (successEvent_code pushed.1)) hres
  have hinv₂ := hinv₁.event (m := blankDma) (List.mem_singleton_self _)
    (successEvent_parameter pushed.1) (Or.inl (successEvent_code pushed.1)) hres
  rw [hdecode] at hinv₂
  exact ⟨_, _, _, hcall, hdecode, _, tr₁, history₁, hinv₂, rfl, List.erase_cons_head _ _⟩

/-- `event_waiters_` after requests in this order. -/
def putAll (waiters : ArrayMap SetupData Addr 4) (requests : List (SetupData × Addr)) :
    ArrayMap SetupData Addr 4 :=
  requests.foldl (fun w r => w.put r.1 r.2) waiters

/-- **Requests served one after another**: each is put into the map, and the
device is idle again after the last. -/
theorem Idle.run (requests : List (SetupData × Addr)) :
    ∀ {dev : Device}, Idle dev → (∀ r ∈ requests, r.2 ≠ nullptr) →
      ∃ dev', ReflTransGen Step (start dev) (start dev') ∧ Idle dev' ∧
        dev'.eventWaiters = putAll dev.eventWaiters requests ∧
        dev'.isInitialized = dev.isInitialized := by
  induction requests with
  | nil => exact fun h _ => ⟨_, .refl, h, rfl, rfl⟩
  | cons r rest ih =>
      intro dev h hissuers
      have hissuer := hissuers r List.mem_cons_self
      obtain ⟨dev₁, trb, dev₂, hcall, hdecode, hidle⟩ := h.serve r.1 r.2
      have hrequest : Step (start dev) ⟨dev₁, [⟨r.1, r.2, dev.eventWaiters⟩]⟩ :=
        .request hissuer (fun o ho => absurd ho List.not_mem_nil) hcall
      have hcomplete : Step ⟨dev₁, [⟨r.1, r.2, dev.eventWaiters⟩]⟩ (start dev₂) :=
        @Step.complete _ blankDma trb [] [] _ nullptr 0 dev₂ rfl (hdecode _)
      obtain ⟨hput, hinit₁⟩ := control_waiters hissuer hcall
      obtain ⟨hkept, hinit₂⟩ := decodeTransferEvent_waiters blankDma dev₁ trb
      rw [hdecode] at hkept hinit₂
      obtain ⟨dev', hrun, hidle', hwaiters, hinit⟩ :=
        ih hidle fun r' hr' => hissuers r' (List.mem_cons_of_mem r hr')
      refine ⟨dev', .head hrequest (.head hcomplete hrun), hidle', ?_, ?_⟩
      · rw [hwaiters, hkept, hput, putAll, putAll, List.foldl_cons]
      · rw [hinit, hinit₂, hinit₁]

/-- The SET_PROTOCOL requests of five keyboard interfaces and their drivers. -/
def keyboards : List (SetupData × Addr) :=
  (List.range 5).map fun i : Nat =>
    (setProtocolData (BitVec.ofNat 8 i), BitVec.ofNat 64 (0x3000 + 0x1000 * i))

/-- An initialized device with five keyboard interfaces. -/
def sampleDevice : Device :=
  { ControlSystem.sampleAlloc.2.1 with
    isInitialized := true
    drivers := fun p => (keyboards.find? fun k => k.2 = p).map fun k =>
      newHidDriver .keyboard (k.1.index.setWidth 8) 0 }

theorem sampleDevice_idle : Idle sampleDevice := by
  obtain ⟨tr, hbuf, halloc⟩ := ControlSystem.sampleAlloc_eq
  have hinv := ControlSystem.inv_start rfl halloc hbuf
  have hother : ControlSystem.Step (ControlSystem.start ControlSystem.sampleAlloc.2.1)
      (ControlSystem.start sampleDevice) := .other rfl rfl
  obtain ⟨tr', history, hinv'⟩ := hinv.step hother
  exact ⟨_, tr', history, hinv', rfl, rfl⟩

theorem sampleDevice_waiters : sampleDevice.eventWaiters = .empty nullptr := rfl

/-- One more request, under way after others were served: it is the one outstanding, and the map
is what all the calls of `Put` have left. -/
theorem served_then_requested (before : List (SetupData × Addr)) (r : SetupData × Addr)
    (hissuers : ∀ r' ∈ r :: before, r'.2 ≠ nullptr) :
    ∃ s trb dev', ReflTransGen Step (start sampleDevice) s ∧
      s.outstanding = [⟨r.1, r.2, putAll (.empty nullptr) before⟩] ∧
      dev'.eventWaiters = (putAll (.empty nullptr) before).put r.1 r.2 ∧
      ∀ m, decodeTransferEvent m s.dev trb = (.control r.1 nullptr 0, dev') := by
  obtain ⟨dev₁, hrun, hidle, hwaiters, -⟩ := sampleDevice_idle.run before
    fun r' hr' => hissuers r' (List.mem_cons_of_mem r hr')
  obtain ⟨dev₂, trb, dev', hcall, hdecode, -⟩ := hidle.serve r.1 r.2
  have hrequest : Step (start dev₁) ⟨dev₂, [⟨r.1, r.2, dev₁.eventWaiters⟩]⟩ :=
    .request (hissuers r List.mem_cons_self) (fun o ho => absurd ho List.not_mem_nil) hcall
  obtain ⟨hkept, -⟩ := decodeTransferEvent_waiters blankDma dev₂ trb
  rw [hdecode] at hkept
  rw [sampleDevice_waiters] at hwaiters
  refine ⟨_, trb, dev', hrun.tail hrequest, ?_, ?_, hdecode⟩
  · rw [hwaiters]
  · rw [hkept, (control_waiters (hissuers r List.mem_cons_self) hcall).1, hwaiters]

/-- The second keyboard, after the first: there is a slot for its waiter, and its completion
reaches its driver. -/
theorem completion_reaches_issuer_iff_second :
    ∃ s o trb dev', ReflTransGen Step (start sampleDevice) s ∧ o ∈ s.outstanding ∧
      o.setupData = setProtocolData 1 ∧ o.issuer = 0x4000 ∧
      ∀ m obs pool, decodeTransferEvent m s.dev trb = (.control o.setupData nullptr 0, dev') ∧
        onTransferEventReceived m obs s.dev pool trb = passOn dev' pool (some 0x4000) := by
  obtain ⟨s, trb, dev', hrun, hone, -, hdecode⟩ := served_then_requested
    [(setProtocolData 0, 0x3000)] (setProtocolData 1, 0x4000) (by decide)
  refine ⟨s, _, trb, dev', hrun, by rw [hone]; exact List.mem_singleton_self _, rfl, rfl, ?_⟩
  intro m obs pool
  refine ⟨hdecode m, ?_⟩
  obtain ⟨hpass, hreaches⟩ := completion_reaches_issuer_iff rfl hrun _
    (by rw [hone]; exact List.mem_singleton_self _) m obs pool trb nullptr 0 dev' (hdecode m)
  rw [hpass, hreaches.mpr ⟨(none, nullptr), by decide, Or.inl rfl⟩]

/-- **The fifth keyboard waits forever**: four other requests have taken the
slots of the map, though all of them have completed. -/
theorem fifth_completion_has_no_waiter :
    ∃ s o trb dev', ReflTransGen Step (start sampleDevice) s ∧ o ∈ s.outstanding ∧
      o.setupData = setProtocolData 4 ∧ o.issuer = 0x7000 ∧
      ∀ m obs pool, decodeTransferEvent m s.dev trb = (.control o.setupData nullptr 0, dev') ∧
        onTransferEventReceived m obs s.dev pool trb = .ok (.kNoWaiter, dev', pool) := by
  obtain ⟨s, trb, dev', hrun, hone, hwaiters, hdecode⟩ := served_then_requested
    (keyboards.take 4) (setProtocolData 4, 0x7000) (by decide)
  refine ⟨s, _, trb, dev', hrun, by rw [hone]; exact List.mem_singleton_self _, rfl, rfl, ?_⟩
  have hdropped : ((putAll (.empty nullptr) (keyboards.take 4)).put (setProtocolData 4) 0x7000).get
      (setProtocolData 4) = none := by decide
  intro m obs pool
  refine ⟨hdecode m, ?_⟩
  rw [onTransferEventReceived_passOn obs pool (inv_of_run rfl hrun).isInitialized (hdecode m),
    hwaiters, hdropped, passOn]

end RequestSystem

end Mikanos.Xhci
