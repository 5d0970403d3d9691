import Mikanos.Usb.InterruptInput

/-!
# Runs of interrupt transfers

A Normal TRB is outstanding from the ring of the doorbell that hands it to the
controller to the Transfer Event that reports its completion.  `issued` reads the
first from the doorbell register: apart from the control transfers on the
default pipe, each value written there is for one TRB, pushed just before.

A run starts from any number of TRBs outstanding and reports each of them at
most once, with any completion code and residual length.  A success leaves as
many outstanding as there were, a failure one less (`Counted.step`).
-/

namespace Mikanos.Xhci

open Mikanos.Usb

namespace Device

/-! ## What a call hands to the controller -/

/-- The values a call has written to the doorbell register. -/
def rung (dev dev' : Device) : List (BitVec 8) := dev'.doorbell.drop dev.doorbell.length

/-- The place of the next TRB on the ring of a doorbell value. -/
def nextTrb (dev : Device) (target : BitVec 8) : Option Addr :=
  match dciIndex target.toNat with
  | .error _ => none
  | .ok i => (dev.transferRings i).map fun tr => tr.slotAddr tr.writeIndex

/-- The TRBs, other than those of the default control pipe, that a call has handed
to the controller. -/
def issued (dev dev' : Device) : List Addr :=
  ((rung dev dev').filter fun target => target ≠ 1).filterMap dev.nextTrb

theorem rung_append {dev dev' : Device} {values : List (BitVec 8)}
    (h : dev'.doorbell = dev.doorbell ++ values) : rung dev dev' = values := by
  rw [rung, h, List.drop_left]

/-- A call that leaves the doorbell alone issues nothing. -/
theorem issued_nil {dev dev' : Device} (h : dev'.doorbell = dev.doorbell) :
    issued dev dev' = [] := by
  rw [issued, rung_append (h.trans (List.append_nil _).symm)]
  rfl

/-- The doorbell value of an endpoint other than the default control pipe is its number among
the rings plus one, and it is not the value of that pipe. -/
theorem doorbellValue {i : Fin 31} (hi : i ≠ 0) :
    (BitVec.ofInt 8 ((i.val : Int) + 1)).toNat = i.val + 1 ∧
      BitVec.ofInt 8 ((i.val : Int) + 1) ≠ 1 := by
  have hlt := i.isLt
  have htoNat : (BitVec.ofInt 8 ((i.val : Int) + 1)).toNat = i.val + 1 := by
    rw [BitVec.toNat_ofInt]
    omega
  refine ⟨htoNat, fun hone => hi (Fin.ext ?_)⟩
  rw [hone] at htoNat
  change 1 = i.val + 1 at htoNat
  change i.val = 0
  omega

/-- One ring of the doorbell for an endpoint issues the TRB at the end of its transfer ring, and
no other. -/
theorem issued_one {dev dev' : Device} {i : Fin 31} {tr : Ring} (hi : i ≠ 0)
    (hring : dev.transferRings i = some tr)
    (h : dev'.doorbell = dev.doorbell ++ [BitVec.ofInt 8 ((i.val : Int) + 1)]) :
    issued dev dev' = [tr.slotAddr tr.writeIndex] := by
  obtain ⟨htoNat, hne⟩ := doorbellValue hi
  have hnext : dev.nextTrb (BitVec.ofInt 8 ((i.val : Int) + 1)) =
      some (tr.slotAddr tr.writeIndex) := by
    unfold nextTrb
    rw [htoNat]
    push_cast
    rw [dciIndex_succ]
    simp only [hring, Option.map_some]
  rw [issued, rung_append h, List.filter_cons_of_pos (by simpa using hne), List.filter_nil,
    List.filterMap_cons_some hnext, List.filterMap_nil]

/-- The ring after a transfer has been armed holds the TRB that was issued. -/
theorem issued_rearmed {dev : Device} {p : Addr} {d : HidDriver} {i : Fin 31} {tr : Ring}
    (h : Listening dev p d i tr) (bytes : List (BitVec 8)) (len : Int) :
    issued dev (rearmed dev p d i tr bytes len) = [tr.slotAddr tr.writeIndex] :=
  issued_one h.own h.ring rfl

end Device

/-! ## Runs -/

/-- What a Transfer Event brings: a failure, or the bytes of `buf_` and the number
of bytes transferred. -/
inductive Report where
  | failed
  | delivered (bytes : List (BitVec 8)) (len : Int)

/-- A device with the TRBs of an interrupt-IN endpoint that are outstanding. -/
structure InputSystem where
  dev : Device
  outstanding : List Addr

namespace InputSystem

open Device

/-- A Transfer Event on the endpoint at subscript `i`, for one of its TRBs. -/
inductive Step (p : Addr) (i : Fin 31) : InputSystem → Report → InputSystem → Prop
  | failed {s : InputSystem} {m : Dma} {obs : DefaultObservers} {pool pool' : Pool} {trb : Trb}
      {err : Error} {dev' : Device} (hfailed : transferFailed trb = true)
      (ho : trb.parameter ∈ s.outstanding) (hep : (eventEndpointId trb).toNat = i.val + 1)
      (hcall : onTransferEventReceived m obs s.dev pool trb = .ok (err, dev', pool')) :
      Step p i s .failed ⟨dev', s.outstanding.erase trb.parameter ++ issued s.dev dev'⟩
  | delivered {s : InputSystem} {m : Dma} {obs : DefaultObservers} {pool pool' : Pool} {trb : Trb}
      {err : Error} {dev' : Device} {d : HidDriver} (hok : transferFailed trb = false)
      (hbuf : HasBuffer m p) (ho : trb.parameter ∈ s.outstanding)
      (hep : (eventEndpointId trb).toNat = i.val + 1) (hd : s.dev.drivers p = some d)
      (hcall : onTransferEventReceived m obs s.dev pool trb = .ok (err, dev', pool')) :
      Step p i s (.delivered (m.bytes (hidBuffer p))
          (transferred (BitVec.ofInt 17 d.inPacketSize) (eventTransferLength trb)))
        ⟨dev', s.outstanding.erase trb.parameter ++ issued s.dev dev'⟩

/-- A run with its reports, oldest first. -/
inductive Run (p : Addr) (i : Fin 31) (s₀ : InputSystem) : List Report → InputSystem → Prop
  | start : Run p i s₀ [] s₀
  | step {reports : List Report} {r : Report} {s s' : InputSystem} (hrun : Run p i s₀ reports s)
      (hstep : Step p i s r s') : Run p i s₀ (reports ++ [r]) s'

/-- The effect of one report on the driver. -/
def see (d : HidDriver) : Report → HidDriver
  | .failed => d
  | .delivered bytes len => afterReport d bytes len

/-- The driver after these reports. -/
def seeAll (d : HidDriver) (reports : List Report) : HidDriver := reports.foldl see d

/-- How many of the reports are failures. -/
def failures : List Report → Nat
  | [] => 0
  | .failed :: rest => failures rest + 1
  | .delivered _ _ :: rest => failures rest

theorem seeAll_append (d : HidDriver) (reports : List Report) (r : Report) :
    seeAll d (reports ++ [r]) = see (seeAll d reports) r := by
  rw [seeAll, List.foldl_append, seeAll]
  rfl

/-- The failures of two runs one after the other are those of the first and those of the second.
-/
theorem failures_append (reports reports' : List Report) :
    failures (reports ++ reports') = failures reports + failures reports' := by
  induction reports with
  | nil => exact (Nat.zero_add _).symm
  | cons r rest ih =>
      cases r with
      | failed =>
          change failures (rest ++ reports') + 1 = failures rest + 1 + failures reports'
          omega
      | delivered bytes len => exact ih

/-- The driver at `p` listens, and the TRBs outstanding are on its ring. -/
structure Ready (s : InputSystem) (p : Addr) (d : HidDriver) (i : Fin 31) (tr : Ring) : Prop where
  listening : Listening s.dev p d i tr
  awaits : ∀ q ∈ s.outstanding, Awaits d p tr q

/-- The invariant of all runs. -/
structure Counted (s : InputSystem) (p : Addr) (d : HidDriver) (i : Fin 31) (armedBefore : Nat)
    (reports : List Report) : Prop where
  ready : ∃ tr, s.Ready p (seeAll d reports) i tr
  count : s.outstanding.length + failures reports = armedBefore

section Runs

variable {p : Addr} {d : HidDriver} {i : Fin 31} {tr : Ring} {s s' : InputSystem}

/-- A failure changes nothing in the device and leaves one TRB less: the handler returns
`kTransferFailed` before it asks for another report. -/
theorem Ready.failed (h : s.Ready p d i tr) {m : Dma} {obs : DefaultObservers}
    {pool pool' : Pool} {trb : Trb} {err : Error} {dev' : Device}
    (hfailed : transferFailed trb = true) (ho : trb.parameter ∈ s.outstanding)
    (hcall : onTransferEventReceived m obs s.dev pool trb = .ok (err, dev', pool')) :
    err = .kTransferFailed ∧ dev' = s.dev ∧
      Ready ⟨dev', s.outstanding.erase trb.parameter ++ issued s.dev dev'⟩ p d i tr ∧
      (s.outstanding.erase trb.parameter ++ issued s.dev dev').length + 1 =
        s.outstanding.length := by
  rw [onTransferEventReceived, decodeTransferEvent_failed m s.dev hfailed] at hcall
  cases hcall
  rw [issued_nil rfl, List.append_nil]
  refine ⟨rfl, rfl, ⟨h.listening, fun q hq => h.awaits q (List.mem_of_mem_erase hq)⟩, ?_⟩
  rw [List.length_erase_of_mem ho]
  have := List.length_pos_of_mem ho
  omega

/-- A success arms one TRB for the one it reports: the driver is told, asks for its next report
and is ready again. -/
theorem Ready.delivered (h : s.Ready p d i tr) {m : Dma} {obs : DefaultObservers}
    {pool pool' : Pool} {trb : Trb} {err : Error} {dev' : Device}
    (hok : transferFailed trb = false) (hbuf : HasBuffer m p)
    (ho : trb.parameter ∈ s.outstanding) (hep : (eventEndpointId trb).toNat = i.val + 1)
    (hcall : onTransferEventReceived m obs s.dev pool trb = .ok (err, dev', pool')) :
    Ready ⟨dev', s.outstanding.erase trb.parameter ++ issued s.dev dev'⟩ p
        (afterReport d (m.bytes (hidBuffer p))
          (transferred (BitVec.ofInt 17 d.inPacketSize) (eventTransferLength trb))) i
        (armed d p tr) ∧
      (s.outstanding.erase trb.parameter ++ issued s.dev dev').length = s.outstanding.length := by
  rw [input_processed h.listening hbuf obs pool (h.awaits _ ho) hok hep] at hcall
  cases hcall
  rw [issued_rearmed h.listening]
  refine ⟨⟨h.listening.rearmed _ _, ?_⟩, ?_⟩
  · intro q hq
    rcases List.mem_append.mp hq with hold | hnew
    · exact (h.awaits q (List.mem_of_mem_erase hold)).armed
    · rw [List.mem_singleton.mp hnew]
      exact awaits_armed h.listening.index
  · rw [List.length_append, List.length_erase_of_mem ho, List.length_singleton]
    have := List.length_pos_of_mem ho
    omega

/-- **Step lemma.** A report keeps the count of the TRBs: a success replaces the one it took,
and a failure does not. -/
theorem Counted.step {n : Nat} {reports : List Report} {r : Report}
    (h : s.Counted p d i n reports) (hstep : Step p i s r s') :
    s'.Counted p d i n (reports ++ [r]) := by
  obtain ⟨tr, hready⟩ := h.ready
  have hcount := h.count
  constructor
  case ready =>
    rw [seeAll_append]
    cases hstep with
    | failed hfailed ho _ hcall => exact ⟨tr, (hready.failed hfailed ho hcall).2.2.1⟩
    | delivered hok hbuf ho hep hd hcall =>
        obtain rfl := Option.some.inj (hready.listening.driver.symm.trans hd)
        exact ⟨_, (hready.delivered hok hbuf ho hep hcall).1⟩
  case count =>
    rw [failures_append]
    cases hstep with
    | failed hfailed ho _ hcall =>
        have hless := (hready.failed hfailed ho hcall).2.2.2
        change (s.outstanding.erase _ ++ issued s.dev _).length + (failures reports + 1) = n
        omega
    | delivered hok hbuf ho hep hd hcall =>
        have hsame := (hready.delivered hok hbuf ho hep hcall).2
        change (s.outstanding.erase _ ++ issued s.dev _).length + (failures reports + 0) = n
        omega

/-- **Run lemma.** -/
theorem counted_of_run {reports : List Report} {s₀ : InputSystem} (h₀ : s₀.Ready p d i tr)
    (hrun : Run p i s₀ reports s) : s.Counted p d i s₀.outstanding.length reports := by
  induction hrun with
  | start => exact ⟨⟨tr, h₀⟩, rfl⟩
  | step _ hstep ih => exact ih.step hstep

/-- Input flows while a TRB for the report buffer is outstanding. -/
def Flows (s : InputSystem) (p : Addr) (i : Fin 31) : Prop :=
  ∃ q ∈ s.outstanding, ∃ tr d, s.dev.transferRings i = some tr ∧ s.dev.drivers p = some d ∧
    Awaits d p tr q

/-- Input still flows exactly if there have been fewer failures than TRBs to start with. -/
theorem Counted.flows_iff {n : Nat} {reports : List Report} (h : s.Counted p d i n reports) :
    s.Flows p i ↔ failures reports < n := by
  obtain ⟨tr, hready⟩ := h.ready
  have hcount := h.count
  constructor
  · intro hflows
    obtain ⟨q, hq, -⟩ := hflows
    have := List.length_pos_of_mem hq
    omega
  · intro hlt
    obtain ⟨q, hq⟩ := List.exists_mem_of_length_pos (by omega : 0 < s.outstanding.length)
    exact ⟨q, hq, tr, _, hready.listening.ring, hready.listening.driver, hready.awaits q hq⟩

/-- An event for an outstanding TRB of the endpoint. -/
theorem endpointBits (i : Fin 31) : (BitVec.ofNat 5 (i.val + 1)).toNat = i.val + 1 := by
  have hi := i.isLt
  rw [BitVec.toNat_ofNat]
  omega

/-- Each outstanding TRB can fail: the controller may answer it with an error at any time. -/
theorem can_fail (p : Addr) (i : Fin 31) {q : Addr} (hq : q ∈ s.outstanding) :
    ∃ s', Step p i s .failed s' := by
  obtain ⟨hparameter, hcode, -, hep⟩ := transferEvent_fields q 4 0 (BitVec.ofNat 5 (i.val + 1))
  have hfailed : transferFailed (transferEvent q 4 0 (BitVec.ofNat 5 (i.val + 1))) = true := by
    unfold transferFailed
    rw [hcode]
    decide
  have hcall : onTransferEventReceived ⟨fun _ => Trb.zero, fun _ => []⟩ ⟨false, false⟩ s.dev
      (Pool.init samplePool) (transferEvent q 4 0 (BitVec.ofNat 5 (i.val + 1))) =
      .ok (.kTransferFailed, s.dev, Pool.init samplePool) := by
    rw [onTransferEventReceived, decodeTransferEvent_failed _ _ hfailed]
    rfl
  exact ⟨_, .failed hfailed (by rw [hparameter]; exact hq) (by rw [hep, endpointBits]) hcall⟩

/-- Each outstanding TRB can bring a report, with any bytes in the buffer and any residual in
the event. -/
theorem Ready.can_deliver (h : s.Ready p d i tr) {q : Addr} (hq : q ∈ s.outstanding)
    (hp : hidBuffer p ≠ nullptr) {bytes : List (BitVec 8)} (hbytes : bytes.length = kBufferSize)
    (residual : BitVec 24) :
    ∃ s', Step p i s
      (.delivered bytes (transferred (BitVec.ofInt 17 d.inPacketSize) residual)) s' := by
  obtain ⟨hparameter, hcode, hresidual, hep⟩ :=
    transferEvent_fields q 1 residual (BitVec.ofNat 5 (i.val + 1))
  have hok : transferFailed (transferEvent q 1 residual (BitVec.ofNat 5 (i.val + 1))) = false :=
    transferFailed_eq_false.mpr (Or.inl hcode)
  have hbuf : HasBuffer ⟨fun _ => Trb.zero, fun _ => bytes⟩ p := ⟨hp, hbytes⟩
  have hq' : (transferEvent q 1 residual (BitVec.ofNat 5 (i.val + 1))).parameter ∈
      s.outstanding := by
    rw [hparameter]
    exact hq
  have hep' : (eventEndpointId (transferEvent q 1 residual (BitVec.ofNat 5 (i.val + 1)))).toNat =
      i.val + 1 := by
    rw [hep, endpointBits]
  have hstep := Step.delivered hok hbuf hq' hep' h.listening.driver
    (input_processed h.listening hbuf ⟨false, false⟩ (Pool.init samplePool) (h.awaits _ hq') hok
      hep')
  rw [hresidual] at hstep
  exact ⟨_, hstep⟩

/-- **Input keeps flowing** on an armed endpoint as long as there have been fewer
failures than TRBs were outstanding at first, and not longer; every event for an
outstanding TRB is processed. -/
theorem input_flows_iff {reports : List Report} {s₀ : InputSystem} (h₀ : s₀.Ready p d i tr)
    (hrun : Run p i s₀ reports s) :
    (s.Flows p i ↔ failures reports < s₀.outstanding.length) ∧
      ∀ m obs pool trb, HasBuffer m p → trb.parameter ∈ s.outstanding →
        (eventEndpointId trb).toNat = i.val + 1 →
        ∃ err dev', onTransferEventReceived m obs s.dev pool trb = .ok (err, dev', pool) := by
  have h := counted_of_run h₀ hrun
  refine ⟨h.flows_iff, fun m obs pool trb hbuf ho hep => ?_⟩
  obtain ⟨tr', hready⟩ := h.ready
  cases hfailed : transferFailed trb with
  | true =>
      rw [onTransferEventReceived, decodeTransferEvent_failed m s.dev hfailed]
      exact ⟨_, _, rfl⟩
  | false =>
      exact ⟨_, _, input_processed hready.listening hbuf obs pool (hready.awaits _ ho) hfailed hep⟩

end Runs

/-! ## A device with a boot driver -/

/-- A driver of a device that has been configured, with one observer. -/
def sampleDriver (kind : HidKind) : HidDriver :=
  { newHidDriver kind 0 1 with epInterruptIn := ⟨3⟩, initializePhase := 2 }

/-- A ring on which nothing has been pushed. -/
def sampleRing : Ring := ⟨0x4000, 32, true, 0, fun _ => Trb.zero⟩

/-- The driver is at 0x3000, and endpoint 1 IN is armed. -/
def sampleInput (kind : HidKind) : InputSystem where
  dev := { Device.new 0x1000 1 with
    isInitialized := true
    initializePhase := 4
    classDrivers := fun k => if k.val = 1 then 0x3000 else nullptr
    drivers := fun p => if p = 0x3000 then some (sampleDriver kind) else none
    transferRings := fun i =>
      if i.val = 2 then some (armed (sampleDriver kind) 0x3000 sampleRing) else none }
  outstanding := [0x4000]

/-- The device of the example, a boot mouse or a boot keyboard with its endpoint at ring number
2, is ready for its first report. -/
theorem sampleInput_ready (kind : HidKind) :
    (sampleInput kind).Ready 0x3000 (sampleDriver kind) 2
      (armed (sampleDriver kind) 0x3000 sampleRing) := by
  obtain ⟨hbuf, hsize⟩ := armed_frame (sampleDriver kind) 0x3000 sampleRing
  have hindex : sampleRing.writeIndex + 1 < sampleRing.bufSize := by decide
  constructor
  case listening =>
    constructor
    case nonnull => decide
    case own => decide
    case driver => rfl
    case endpoint => rfl
    case isIn => rfl
    case packet => cases kind <;> decide
    case classDriver =>
      intro k hk
      have hk : (1 : Int) = k.val := hk
      exact if_pos (by omega)
    case ring => rfl
    case buffer =>
      rw [hbuf]
      decide
    case fits =>
      rw [hsize]
      decide
    case index => exact armed_index hindex
    case apart =>
      intro j tr' hj htr'
      have hval : ¬ j.val = 2 := fun h => hj (Fin.ext h)
      change (if j.val = 2 then _ else none) = some tr' at htr'
      rw [if_neg hval] at htr'
      cases htr'
  case awaits =>
    intro q hq
    rw [List.mem_singleton.mp hq]
    exact awaits_armed hindex

/-- The keyboard goes on after a report of zeros and falls silent after a failure, as it has one
TRB on its ring. -/
theorem input_flows_iff_keyboard :
    ∃ s s' len, Run 0x3000 2 (sampleInput .keyboard) [.delivered (List.replicate 1024 0) len] s ∧
      s.Flows 0x3000 2 ∧ Run 0x3000 2 (sampleInput .keyboard) [.failed] s' ∧
      ¬ s'.Flows 0x3000 2 := by
  have hready := sampleInput_ready .keyboard
  obtain ⟨s, hstep⟩ := hready.can_deliver List.mem_cons_self (by decide)
    (List.length_replicate : (List.replicate kBufferSize (0 : BitVec 8)).length = _) 5
  obtain ⟨s', hstep'⟩ := can_fail (s := sampleInput .keyboard) 0x3000 2 List.mem_cons_self
  have hrun := Run.start.step hstep
  have hrun' := Run.start.step hstep'
  refine ⟨s, s', _, hrun, (input_flows_iff hready hrun).1.mpr (by decide), hrun', fun hflows => ?_⟩
  exact absurd ((input_flows_iff hready hrun').1.mp hflows) (by decide)

/-- **One failed transfer silences the device**: the keyboard has one TRB on its ring, its
failure is not followed by another request, and so nothing is outstanding. -/
theorem failed_transfer_silences :
    ∃ s, Run 0x3000 2 (sampleInput .keyboard) [.failed] s ∧ s.outstanding = [] := by
  obtain ⟨s, hstep⟩ := can_fail (s := sampleInput .keyboard) 0x3000 2 List.mem_cons_self
  have hcounted := counted_of_run (sampleInput_ready .keyboard) (Run.start.step hstep)
  have hcount : s.outstanding.length + 1 = 1 := hcounted.count
  exact ⟨s, Run.start.step hstep, List.eq_nil_of_length_eq_zero (by omega)⟩

end InputSystem

end Mikanos.Xhci
