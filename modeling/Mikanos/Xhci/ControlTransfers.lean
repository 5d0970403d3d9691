import Mikanos.Usb.DeviceFrame
import Mathlib.Logic.Relation

/-!
# Control transfers, from the request to its completion

A completion reports the address of one TRB, the Data or Status Stage TRB that
asked for an interrupt.  The driver finds the Setup Stage TRB of the transfer
in `setup_stage_map_` and reads the request back from the ring.

The transfers whose completion has not been handled yet are the entries of the
map.  A ring of 32 slots remembers the last 31 TRBs, so as long as no more than
31 TRBs have been pushed since the oldest of these transfers began, all their
TRBs are still in place (`Ring.Remembers`).  Each transfer has at least two of
them, which leaves room for at most 15 transfers: the 16 entries of the map
suffice, and no two entries share a key.
-/

namespace Mikanos.Xhci

open BitField CycleRing Relation Mikanos.Usb

namespace Device

/-! ## The TRBs of a transfer -/

/-- The request written into a Setup Stage TRB is read back from it, all five fields, so a
completion can say what was asked. -/
theorem setupDataOf_makeSetupStageTRB (setupData : SetupData) (transferType : BitVec 2) :
    setupDataOf (makeSetupStageTRB setupData transferType) = setupData := by
  have hrequestType : (makeSetupStageTRB setupData transferType).bits 0 0 8
      = setupData.requestType := by
    simp only [makeSetupStageTRB]
    rw [Trb.bits_setBits_of_disjoint _ _ _ _ _ _ (by decide),
      Trb.bits_setBits_of_disjoint _ _ _ _ _ _ (by decide),
      Trb.bits_setBits_of_disjoint _ _ _ _ _ _ (by decide),
      Trb.bits_setBits_of_disjoint _ _ _ _ _ _ (by decide),
      Trb.bits_setBits_of_disjoint _ _ _ _ _ _ (by decide),
      Trb.bits_setBits_same _ _ _ _ (by decide)]
  have hrequest : (makeSetupStageTRB setupData transferType).bits 0 8 8
      = setupData.request := by
    simp only [makeSetupStageTRB]
    rw [Trb.bits_setBits_of_disjoint _ _ _ _ _ _ (by decide),
      Trb.bits_setBits_of_disjoint _ _ _ _ _ _ (by decide),
      Trb.bits_setBits_of_disjoint _ _ _ _ _ _ (by decide),
      Trb.bits_setBits_of_disjoint _ _ _ _ _ _ (by decide),
      Trb.bits_setBits_same _ _ _ _ (by decide)]
  have hvalue : (makeSetupStageTRB setupData transferType).bits 0 16 16 = setupData.value := by
    simp only [makeSetupStageTRB]
    rw [Trb.bits_setBits_of_disjoint _ _ _ _ _ _ (by decide),
      Trb.bits_setBits_of_disjoint _ _ _ _ _ _ (by decide),
      Trb.bits_setBits_of_disjoint _ _ _ _ _ _ (by decide),
      Trb.bits_setBits_same _ _ _ _ (by decide)]
  have hindex : (makeSetupStageTRB setupData transferType).bits 1 0 16 = setupData.index := by
    simp only [makeSetupStageTRB]
    rw [Trb.bits_setBits_of_disjoint _ _ _ _ _ _ (by decide),
      Trb.bits_setBits_of_disjoint _ _ _ _ _ _ (by decide),
      Trb.bits_setBits_same _ _ _ _ (by decide)]
  have hlength : (makeSetupStageTRB setupData transferType).bits 1 16 16 = setupData.length := by
    simp only [makeSetupStageTRB]
    rw [Trb.bits_setBits_of_disjoint _ _ _ _ _ _ (by decide),
      Trb.bits_setBits_same _ _ _ _ (by decide)]
  rw [setupDataOf, hrequestType, hrequest, hvalue, hindex, hlength]

/-- The cycle bit is not part of the request. -/
theorem setupDataOf_stamp (t : Trb) (cycle : Bool) :
    setupDataOf (t.stamp cycle) = setupDataOf t := by
  simp only [setupDataOf, Trb.bits_stamp t cycle 0 _ (Or.inl (by decide)),
    Trb.bits_stamp t cycle 1 _ (Or.inl (by decide))]

/-- The TRB that asks for the interrupt of a transfer. -/
def issuerTRB (dirIn : Bool) (buf : Addr) (len : Int) : Trb :=
  if buf ≠ nullptr then interruptOnCompletion (makeDataStageTRB buf len dirIn)
  else interruptOnCompletion (statusDirection statusStageTRB)

/-- The fields of a Data Stage TRB that a completion uses, its type, buffer and length, are
those it was made with. -/
theorem issuerTRB_data (dirIn : Bool) {buf : Addr} (len : Int) (hbuf : buf ≠ nullptr) :
    (issuerTRB dirIn buf len).trbType = dataStageType ∧
      (issuerTRB dirIn buf len).parameter = buf ∧
      transferLength (issuerTRB dirIn buf len) = BitVec.ofInt 17 len := by
  rw [issuerTRB, if_pos hbuf]
  refine ⟨?_, ?_, ?_⟩
  · simp only [interruptOnCompletion, makeDataStageTRB, Trb.trbType]
    rw [Trb.bits_setBits_of_disjoint _ _ _ _ _ _ (by decide),
      Trb.bits_setBits_of_disjoint _ _ _ _ _ _ (by decide),
      Trb.bits_setBits_of_disjoint _ _ _ _ _ _ (by decide),
      Trb.bits_setBits_of_disjoint _ _ _ _ _ _ (by decide),
      Trb.bits_setParameter_of_ne _ _ _ _ (by decide) (by decide), dataStageTRB,
      Trb.bits_setBits_same _ _ _ _ (by decide)]
    rfl
  · have h0 : (interruptOnCompletion (makeDataStageTRB buf len dirIn)).parameter
        = (dataStageTRB.setParameter buf).parameter := by
      refine Trb.parameter_congr ?_ ?_ <;>
        simp only [interruptOnCompletion, makeDataStageTRB] <;>
        rw [Trb.data_setBits_of_ne _ _ _ (by decide), Trb.data_setBits_of_ne _ _ _ (by decide),
          Trb.data_setBits_of_ne _ _ _ (by decide), Trb.data_setBits_of_ne _ _ _ (by decide)]
    rw [h0, Trb.parameter_setParameter]
  · simp only [interruptOnCompletion, makeDataStageTRB, transferLength]
    rw [Trb.bits_setBits_of_disjoint _ _ _ _ _ _ (by decide),
      Trb.bits_setBits_of_disjoint _ _ _ _ _ _ (by decide),
      Trb.bits_setBits_of_disjoint _ _ _ _ _ _ (by decide),
      Trb.bits_setBits_same _ _ _ _ (by decide)]

/-- A transfer without data is reported by its Status Stage TRB. -/
theorem issuerTRB_status (dirIn : Bool) (len : Int) :
    (issuerTRB dirIn nullptr len).trbType = statusStageType := by
  rw [issuerTRB, if_neg (not_not.mpr rfl)]
  simp only [interruptOnCompletion, statusDirection, Trb.trbType]
  rw [Trb.bits_setBits_of_disjoint _ _ _ _ _ _ (by decide),
    Trb.bits_setBits_of_disjoint _ _ _ _ _ _ (by decide), statusStageTRB,
    Trb.bits_setBits_same _ _ _ _ (by decide)]
  rfl

/-- The TRB that stands for a control transfer in the event is no Normal TRB, so the event is
taken for a control transfer. -/
theorem issuerTRB_trbType_ne (dirIn : Bool) (buf : Addr) (len : Int) :
    (issuerTRB dirIn buf len).trbType ≠ normalType := by
  by_cases hbuf : buf = nullptr
  · rw [hbuf, issuerTRB_status]
    decide
  · rw [(issuerTRB_data dirIn len hbuf).1]
    decide

/-! ## Pushing a transfer -/

/-- The type of a transfer with data, by direction. -/
def dataType (dirIn : Bool) : BitVec 2 := if dirIn then kInDataStage else kOutDataStage

/-- The Status Stage TRB of a transfer with data, by direction. -/
def dataStatus (dirIn : Bool) : Trb :=
  if dirIn then statusStageTRB else statusDirection statusStageTRB

/-- How many TRBs a transfer takes. -/
def trbCount (buf : Addr) : Nat := if buf ≠ nullptr then 3 else 2

theorem trbCount_le (buf : Addr) : trbCount buf ≤ 3 := by
  unfold trbCount
  split <;> omega

/-- On a ring with a history a transfer always finds its slots: the Setup Stage
TRB comes next and the TRB that asks for the interrupt right after it. -/
theorem pushTransfer_remembers {tr : Ring} {history : List Trb} (h : tr.Remembers 32 history)
    (dirIn : Bool) (setupData : SetupData) (buf : Addr) (len : Int) :
    ∃ type extra tr',
      pushTransfer tr (dataType dirIn) dirIn (dataStatus dirIn) setupData buf len =
          .ok (tr.slotAddr ((history.length + 1) % 31), tr.slotAddr (history.length % 31), tr') ∧
        tr'.buf = tr.buf ∧
        tr'.Remembers 32
          (history ++ makeSetupStageTRB setupData type :: issuerTRB dirIn buf len :: extra) ∧
        extra.length + 2 = trbCount buf := by
  have hn : 2 ≤ 32 := by omega
  by_cases hbuf : buf ≠ nullptr
  · obtain ⟨tr₁, hpush₁, hbuf₁, h₁⟩ := h.push hn (makeSetupStageTRB setupData (dataType dirIn))
    obtain ⟨tr₂, hpush₂, hbuf₂, h₂⟩ := h₁.push hn (issuerTRB dirIn buf len)
    obtain ⟨tr₃, hpush₃, hbuf₃, h₃⟩ := h₂.push hn (dataStatus dirIn)
    have hslot : tr₁.slotAddr = tr.slotAddr := funext fun i => by
      rw [Ring.slotAddr, Ring.slotAddr, hbuf₁]
    refine ⟨dataType dirIn, [dataStatus dirIn], tr₃, ?_, hbuf₃.trans (hbuf₂.trans hbuf₁), ?_, ?_⟩
    · rw [hslot, List.length_append] at hpush₂
      rw [pushTransfer, if_pos hbuf, pushWithData, hpush₁]
      rw [issuerTRB, if_pos hbuf] at hpush₂
      simp only [bind, bind_ok, hpush₂, hpush₃]
      rfl
    · simpa using h₃
    · rw [trbCount, if_pos hbuf]
      rfl
  · obtain ⟨tr₁, hpush₁, hbuf₁, h₁⟩ := h.push hn (makeSetupStageTRB setupData kNoDataStage)
    obtain ⟨tr₂, hpush₂, hbuf₂, h₂⟩ := h₁.push hn (issuerTRB dirIn buf len)
    have hslot : tr₁.slotAddr = tr.slotAddr := funext fun i => by
      rw [Ring.slotAddr, Ring.slotAddr, hbuf₁]
    refine ⟨kNoDataStage, [], tr₂, ?_, hbuf₂.trans hbuf₁, ?_, ?_⟩
    · rw [hslot, List.length_append] at hpush₂
      rw [pushTransfer, if_neg hbuf, pushNoData, hpush₁]
      rw [issuerTRB, if_neg hbuf] at hpush₂
      simp only [bind, bind_ok, hpush₂]
      rfl
    · simpa using h₂
    · rw [trbCount, if_neg hbuf]
      rfl

/-- `noteTransfer` keeps the ring the TRBs were pushed on. -/
theorem noteTransfer_ring (dev : Device) (i : Fin 31) (dci : Int) (pushed : Addr × Addr × Ring) :
    (dev.noteTransfer i dci pushed).transferRings i = some pushed.2.2 := by
  simp [noteTransfer, ringDoorbell, setRing]

/-- `ControlIn` and `ControlOut` differ in their TRBs only. -/
theorem control_eq_transfer (dev : Device) (dirIn : Bool) (setupData : SetupData) (buf : Addr)
    (len : Int) (issuer : Addr) : dev.control dirIn setupData buf len issuer =
      dev.controlTransfer (dataType dirIn) dirIn (dataStatus dirIn) kDefaultControlPipeID setupData
        buf len issuer := by
  cases dirIn with
  | true => rw [control, if_pos rfl, controlIn, dataType, dataStatus, if_pos rfl, if_pos rfl]
  | false =>
    have hout : ¬(false = true) := Bool.false_ne_true
    rw [control, if_neg hout, controlOut, dataType, dataStatus, if_neg hout, if_neg hout]

/-- `ControlIn` and `ControlOut` on the default control pipe, with a ring and
TRBs that could be pushed. -/
theorem control_eq {dev : Device} {tr : Ring} (hring : dev.transferRings 0 = some tr)
    (dirIn : Bool) (setupData : SetupData) (buf : Addr) (len : Int) (issuer : Addr)
    {pushed : Addr × Addr × Ring}
    (hpush : pushTransfer tr (dataType dirIn) dirIn (dataStatus dirIn) setupData buf len =
      .ok pushed) :
    dev.control dirIn setupData buf len issuer =
      .ok (.kSuccess, (dev.addWaiter setupData issuer).noteTransfer 0 1 pushed) := by
  have hwaiter : (dev.addWaiter setupData issuer).transferRings 0 = some tr := by
    obtain ⟨eventWaiters, hadd⟩ := addWaiter_fields dev setupData issuer
    rw [hadd]
    exact hring
  have hnumber : ¬(kDefaultControlPipeID.number < 0 ∨ 15 < kDefaultControlPipeID.number) := by
    decide
  have hdci : dciIndex kDefaultControlPipeID.address = .ok 0 := rfl
  rw [control_eq_transfer]
  simp only [controlTransfer, if_neg hnumber, hdci, bind, bind_ok, hwaiter, hpush]
  rfl

/-! ## Reading a transfer back -/

/-- A pointer into the control ring leads to the slot it names. -/
theorem trbAt_control_ring (m : Dma) (dev : Device) {tr : Ring} {p : Addr} {i : Nat}
    (hring : dev.transferRings 0 = some tr) (hslot : tr.slotAt p = some i) :
    trbAt m dev p = tr.mem i := by
  rw [trbAt, List.finRange_succ, List.findSome?_cons, hring, Option.bind_some, hslot]
  rfl

/-- A completion whose entry is in the map is decoded with the Setup Stage TRB the
entry names, and the entry is deleted. -/
theorem decodeTransferEvent_found (m : Dma) {dev : Device} {tr : Ring} {trb : Trb} {i : Nat}
    {setupAddr : Addr} {dirIn : Bool} {buf : Addr} {len : Int}
    (hring : dev.transferRings 0 = some tr)
    (hcode : eventCompletionCode trb = 1 ∨ eventCompletionCode trb = 13)
    (hissuer : tr.slotAt trb.parameter = some i)
    (hi : (tr.mem i).stamp false = (issuerTRB dirIn buf len).stamp false)
    (hmap : dev.setupStageMap.get trb.parameter = some setupAddr) :
    decodeTransferEvent m dev trb =
      (decodeControl m { dev with setupStageMap := dev.setupStageMap.delete trb.parameter }
        (tr.mem i) setupAddr (eventTransferLength trb),
        { dev with setupStageMap := dev.setupStageMap.delete trb.parameter }) := by
  have hnot : ¬(eventCompletionCode trb ≠ 1 ∧ eventCompletionCode trb ≠ 13) := by tauto
  have htype : (tr.mem i).trbType ≠ normalType := by
    rw [← Trb.trbType_stamp _ false, hi, Trb.trbType_stamp]
    exact issuerTRB_trbType_ne dirIn buf len
  rw [decodeTransferEvent, if_neg hnot]
  simp only [trbAt_control_ring m dev hring hissuer, hmap, if_neg htype]

/-- **A completion is decoded to its request**: when the Setup Stage TRB and the
TRB that asked for the interrupt are still on the ring and the map leads from
one to the other. -/
theorem decodeTransferEvent_control (m : Dma) {dev : Device} {tr : Ring} {trb : Trb} {i j : Nat}
    {setupAddr : Addr} {setupData : SetupData} {type : BitVec 2} {dirIn : Bool} {buf : Addr}
    {len : Int} (hring : dev.transferRings 0 = some tr)
    (hcode : eventCompletionCode trb = 1 ∨ eventCompletionCode trb = 13)
    (h0 : 0 ≤ len) (hlen : len < 2 ^ 17) (hres : ((eventTransferLength trb).toNat : Int) ≤ len)
    (hissuer : tr.slotAt trb.parameter = some i) (hsetup : tr.slotAt setupAddr = some j)
    (hi : (tr.mem i).stamp false = (issuerTRB dirIn buf len).stamp false)
    (hj : (tr.mem j).stamp false = (makeSetupStageTRB setupData type).stamp false)
    (hmap : dev.setupStageMap.get trb.parameter = some setupAddr) :
    decodeTransferEvent m dev trb =
      (.control setupData buf
        (if buf = nullptr then 0 else len - (eventTransferLength trb).toNat),
        { dev with setupStageMap := dev.setupStageMap.delete trb.parameter }) := by
  have htype : (tr.mem i).trbType = (issuerTRB dirIn buf len).trbType := by
    rw [← Trb.trbType_stamp _ false, hi, Trb.trbType_stamp]
  have hdata : setupDataOf (tr.mem j) = setupData := by
    rw [← setupDataOf_stamp _ false, hj, setupDataOf_stamp, setupDataOf_makeSetupStageTRB]
  have hsetupAt : ∀ stages, trbAt m { dev with setupStageMap := stages } setupAddr = tr.mem j :=
    fun stages => trbAt_control_ring m { dev with setupStageMap := stages } hring hsetup
  rw [decodeTransferEvent_found m hring hcode hissuer hi hmap]
  simp only [decodeControl, hsetupAt, hdata, htype]
  by_cases hbuf : buf = nullptr
  · rw [hbuf, issuerTRB_status, if_neg (by decide), if_pos rfl, if_pos rfl]
  · obtain ⟨hkind, -, -⟩ := issuerTRB_data dirIn len hbuf
    have hpointer : (tr.mem i).parameter = buf := by
      rw [← Trb.parameter_stamp _ false, hi, Trb.parameter_stamp]
      exact (issuerTRB_data dirIn len hbuf).2.1
    have hlength : transferLength (tr.mem i) = BitVec.ofInt 17 len := by
      rw [transferLength, ← Trb.bits_stamp _ false 2 _ (Or.inl (by decide)), hi,
        Trb.bits_stamp _ false 2 _ (Or.inl (by decide))]
      exact (issuerTRB_data dirIn len hbuf).2.2
    rw [hkind, if_pos rfl, if_neg hbuf, hpointer, hlength, transferred_eq h0 hlen hres]

/-- A ring object, once placed, is empty and has the size it was asked for, which is the size
the device checks pushes against. -/
theorem placeRing_some {n : Nat} {block : Addr × Pool} {tr : Ring}
    (h : (placeRing n block).1 = some tr) : tr.bufSize = n ∧ tr.writeIndex = 0 := by
  unfold placeRing at h
  split at h
  · cases h
  · obtain ⟨hsize, hindex⟩ := rawRing.useBlock_empty n
      (block.2.allocArray 16 (BitVec.ofNat 64 n) 64 (64 * 1024))
    rw [← Ring.initializeRing] at hsize hindex
    generalize rawRing.initializeRing n block.2 = result at h hsize hindex
    obtain rfl : result.2.1 = tr := Option.some.inj h
    exact ⟨hsize, hindex⟩

/-- A ring `AllocTransferRing` could allocate is empty and ready. -/
theorem allocTransferRing_remembers {dev dev' : Device} {i : Fin 31} {n : Nat}
    {pool pool' : Pool} {tr : Ring} (h : dev.allocTransferRing i n pool = (some tr, dev', pool'))
    (hbuf : tr.buf ≠ nullptr) :
    dev' = dev.setRing i (some tr) ∧ tr.Remembers n [] := by
  unfold allocTransferRing at h
  generalize hplace : placeRing n (pool.allocArray 32 1 64 4096) = placed at h
  obtain ⟨ring, pool₁⟩ := placed
  cases h
  obtain ⟨hsize, hindex⟩ := placeRing_some (congrArg Prod.fst hplace)
  exact ⟨rfl, Ring.remembers_nil hbuf hsize hindex⟩

end Device

/-! ## Runs of control transfers -/

/-- A control transfer whose completion has not been handled: the request, the
address of the TRB that asks for the interrupt, and the number of TRBs pushed
before its Setup Stage TRB. -/
structure Transfer where
  setupData : SetupData
  buf : Addr
  len : Int
  ioc : Addr
  first : Nat
  deriving DecidableEq

/-- A device with its control transfers, oldest first; `pushes` counts the TRBs
pushed on the control ring so far. -/
structure ControlSystem where
  dev : Device
  pushes : Nat
  outstanding : List Transfer

namespace ControlSystem

open Device

/-- A device none of whose control transfers is under way. -/
def start (dev : Device) : ControlSystem := ⟨dev, 0, []⟩

/-- What happens on the control ring.  A request is made only while no more
than 31 TRBs will have been pushed since the oldest transfer began; an event
takes the device to the call of its completion function, the requests of which
are steps of their own (`onControlCompleted_run`). -/
inductive Step : ControlSystem → ControlSystem → Prop
  | request {s : ControlSystem} {dirIn : Bool} {setupData : SetupData} {buf : Addr} {len : Int}
      {issuer : Addr} {tr : Ring} {pushed : Addr × Addr × Ring} {err : Error} {dev' : Device}
      (h0 : 0 ≤ len) (hlen : len < 2 ^ 17)
      (hwindow : ∀ o ∈ s.outstanding, s.pushes + trbCount buf ≤ o.first + 31)
      (hring : s.dev.transferRings 0 = some tr)
      (hpush : pushTransfer tr (dataType dirIn) dirIn (dataStatus dirIn) setupData buf len =
        .ok pushed)
      (hcall : s.dev.control dirIn setupData buf len issuer = .ok (err, dev')) :
      Step s ⟨dev', s.pushes + trbCount buf,
        s.outstanding ++ [⟨setupData, buf, len, pushed.1, s.pushes⟩]⟩
  | event {s : ControlSystem} {m : Dma} {o : Transfer} {trb : Trb} (ho : o ∈ s.outstanding)
      (hioc : trb.parameter = o.ioc)
      (hcode : eventCompletionCode trb = 1 ∨ eventCompletionCode trb = 13)
      (hres : ((eventTransferLength trb).toNat : Int) ≤ o.len) :
      Step s ⟨(decodeTransferEvent m s.dev trb).2, s.pushes, s.outstanding.erase o⟩
  | other {s : ControlSystem} {dev' : Device}
      (hring : dev'.transferRings 0 = s.dev.transferRings 0)
      (hmap : dev'.setupStageMap = s.dev.setupStageMap) :
      Step s { s with dev := dev' }

/-- A transfer whose TRBs are among the last 31 of the history. -/
structure OnRing (tr : Ring) (history : List Trb) (o : Transfer) : Prop where
  len_nonneg : 0 ≤ o.len
  len_lt : o.len < 2 ^ 17
  window : history.length ≤ o.first + 31
  setup : ∃ type, history[o.first]? = some (makeSetupStageTRB o.setupData type)
  issuer : ∃ dirIn, history[o.first + 1]? = some (issuerTRB dirIn o.buf o.len)
  ioc : o.ioc = tr.slotAddr ((o.first + 1) % 31)

/-- The entry of `setup_stage_map_` that a transfer needs. -/
def mapEntry (tr : Ring) (o : Transfer) : Addr × Addr := (o.ioc, tr.slotAddr (o.first % 31))

/-- The invariant of all runs; `history` is the list of TRBs pushed so far. -/
structure Inv (s : ControlSystem) (tr : Ring) (history : List Trb) : Prop where
  ring : s.dev.transferRings 0 = some tr
  remembers : tr.Remembers 32 history
  pushes : s.pushes = history.length
  onRing : ∀ o ∈ s.outstanding, OnRing tr history o
  spaced : s.outstanding.Pairwise fun a b => a.first + 2 ≤ b.first
  entries : s.dev.setupStageMap.entries.Perm (s.outstanding.map (mapEntry tr))

/-- Later pushes leave a transfer on the ring, up to 31 TRBs from its first one on: the ring has
31 slots besides the Link TRB. -/
theorem OnRing.append {tr tr' : Ring} {history : List Trb} {o : Transfer}
    (h : OnRing tr history o) (hbuf : tr'.buf = tr.buf) (more : List Trb)
    (hwindow : history.length + more.length ≤ o.first + 31) :
    OnRing tr' (history ++ more) o where
  len_nonneg := h.len_nonneg
  len_lt := h.len_lt
  window := by rw [List.length_append]; exact hwindow
  setup := by
    obtain ⟨type, htype⟩ := h.setup
    have hlt := (List.getElem?_eq_some_iff.mp htype).1
    exact ⟨type, by rw [List.getElem?_append_left hlt, htype]⟩
  issuer := by
    obtain ⟨dirIn, hdir⟩ := h.issuer
    have hlt := (List.getElem?_eq_some_iff.mp hdir).1
    exact ⟨dirIn, by rw [List.getElem?_append_left hlt, hdir]⟩
  ioc := by rw [h.ioc, Ring.slotAddr, Ring.slotAddr, hbuf]

/-- Both TRBs of a transfer have been pushed. -/
theorem OnRing.pushed {tr : Ring} {history : List Trb} {o : Transfer} (h : OnRing tr history o) :
    o.first + 2 ≤ history.length := by
  obtain ⟨dirIn, hdir⟩ := h.issuer
  exact (List.getElem?_eq_some_iff.mp hdir).1

section Invariant

variable {s : ControlSystem} {tr : Ring} {history : List Trb}

/-- Transfers of two TRBs each, in a window, are at most half as many as the window is long, by
induction over them. -/
theorem spaced_length {hi : Nat} (l : List Transfer) :
    ∀ lo, lo ≤ hi → (l.Pairwise fun a b => a.first + 2 ≤ b.first) →
      (∀ o ∈ l, lo ≤ o.first) → (∀ o ∈ l, o.first + 2 ≤ hi) → lo + 2 * l.length ≤ hi := by
  induction l with
  | nil => exact fun lo hle _ _ _ => hle
  | cons o rest ih =>
      intro lo hle hspaced hlo hhi
      obtain ⟨hfirst, hrest⟩ := List.pairwise_cons.mp hspaced
      have htail := ih (o.first + 2) (hhi o List.mem_cons_self) hrest hfirst
        fun x hx => hhi x (List.mem_cons_of_mem o hx)
      have hhead := hlo o List.mem_cons_self
      rw [List.length_cons]
      omega

/-- **Capacity**: at most 15 transfers can be outstanding. -/
theorem Inv.length_le (h : s.Inv tr history) : s.outstanding.length ≤ 15 := by
  have hbound := spaced_length s.outstanding (history.length - 31) (Nat.sub_le _ _) h.spaced
    (fun o ho => by have := (h.onRing o ho).window; omega) fun o ho => (h.onRing o ho).pushed
  omega

/-- No two outstanding transfers report the same TRB, since they are at different places of one
lap of the ring. -/
theorem Inv.ioc_nodup (h : s.Inv tr history) : (s.outstanding.map Transfer.ioc).Nodup := by
  refine List.pairwise_map.mpr (h.spaced.imp_of_mem fun {a b} ha hb hab heq => ?_)
  have hA := h.onRing a ha
  have hB := h.onRing b hb
  have hwindow := hA.window
  have hpushed := hB.pushed
  rw [hA.ioc, hB.ioc] at heq
  have hslot := trbAddr_injective tr.buf 31 (Nat.mod_lt _ (by omega))
    (Nat.mod_lt _ (by omega)) (by omega) heq
  have := slot_injective (m := 31) (by omega) (by omega) hslot
  omega

/-- The map leads from each outstanding transfer to its Setup Stage TRB. -/
theorem Inv.get (h : s.Inv tr history) {o : Transfer} (ho : o ∈ s.outstanding) :
    s.dev.setupStageMap.get o.ioc = some (tr.slotAddr (o.first % 31)) := by
  have hkeys : (s.dev.setupStageMap.entries.map Prod.fst).Nodup := by
    rw [(h.entries.map Prod.fst).nodup_iff, List.map_map]
    exact h.ioc_nodup
  rw [ArrayMap.get_eq_some_iff hkeys, h.entries.mem_iff]
  exact List.mem_map_of_mem ho

/-- A TRB of the window is still in its slot, and its address leads to it. -/
theorem Inv.slot (h : s.Inv tr history) {k : Nat} {t : Trb} (hk : history[k]? = some t)
    (hwindow : history.length ≤ k + 31) :
    tr.slotAt (tr.slotAddr (k % 31)) = some (k % 31) ∧
      (tr.mem (k % 31)).stamp false = t.stamp false := by
  refine ⟨?_, h.remembers.recent k t hk hwindow⟩
  rw [Ring.slotAt, Ring.slotAddr, h.remembers.size]
  have := Nat.mod_lt k (show 0 < 31 by omega)
  exact trbIndex_trbAddr tr.buf (by omega) (by omega)

/-- The address of an outstanding transfer leads to the TRB that asked for the
interrupt. -/
theorem Inv.issuer (h : s.Inv tr history) {o : Transfer} (ho : o ∈ s.outstanding) :
    ∃ i dirIn, tr.slotAt o.ioc = some i ∧
      (tr.mem i).stamp false = (issuerTRB dirIn o.buf o.len).stamp false := by
  have hon := h.onRing o ho
  have hwindow := hon.window
  obtain ⟨dirIn, hissuer⟩ := hon.issuer
  obtain ⟨hissuerAt, hissuerMem⟩ := h.slot hissuer (by omega)
  rw [← hon.ioc] at hissuerAt
  exact ⟨_, dirIn, hissuerAt, hissuerMem⟩

/-- **The round trip** in a state that satisfies the invariant: the completion of an outstanding
transfer gives its request, its buffer and the bytes moved. -/
theorem Inv.decode (h : s.Inv tr history) (m : Dma) {o : Transfer} (ho : o ∈ s.outstanding)
    {trb : Trb} (hioc : trb.parameter = o.ioc)
    (hcode : eventCompletionCode trb = 1 ∨ eventCompletionCode trb = 13)
    (hres : ((eventTransferLength trb).toNat : Int) ≤ o.len) :
    decodeTransferEvent m s.dev trb =
      (.control o.setupData o.buf
        (if o.buf = nullptr then 0 else o.len - (eventTransferLength trb).toNat),
        { s.dev with setupStageMap := s.dev.setupStageMap.delete o.ioc }) := by
  have hon := h.onRing o ho
  have hwindow := hon.window
  obtain ⟨type, hsetup⟩ := hon.setup
  obtain ⟨hsetupAt, hsetupMem⟩ := h.slot hsetup (by omega)
  obtain ⟨i, dirIn, hissuerAt, hissuerMem⟩ := h.issuer ho
  have hmap := h.get ho
  rw [← hioc] at hissuerAt hmap ⊢
  exact decodeTransferEvent_control m h.ring hcode hon.len_nonneg hon.len_lt hres hissuerAt
    hsetupAt hissuerMem hsetupMem hmap

/-- **Step lemma for a request**: its TRBs go behind those on the ring, the map gets its entry,
and the transfers outstanding before are still found. -/
theorem Inv.request (h : s.Inv tr history) {dirIn : Bool} {setupData : SetupData} {buf : Addr}
    {len : Int} {issuer : Addr} (h0 : 0 ≤ len) (hlen : len < 2 ^ 17)
    (hwindow : ∀ o ∈ s.outstanding, s.pushes + trbCount buf ≤ o.first + 31)
    {pushed : Addr × Addr × Ring} {err : Error} {dev' : Device}
    (hpush : pushTransfer tr (dataType dirIn) dirIn (dataStatus dirIn) setupData buf len =
      .ok pushed)
    (hcall : s.dev.control dirIn setupData buf len issuer = .ok (err, dev')) :
    ∃ tr' history', Inv ⟨dev', s.pushes + trbCount buf,
      s.outstanding ++ [⟨setupData, buf, len, pushed.1, s.pushes⟩]⟩ tr' history' := by
  obtain ⟨type, extra, tr', hpush', hbuf, hremembers, hextra⟩ :=
    pushTransfer_remembers h.remembers dirIn setupData buf len
  obtain rfl : pushed = _ := Except.ok.inj (hpush.symm.trans hpush')
  rw [control_eq h.ring dirIn setupData buf len issuer hpush'] at hcall
  obtain ⟨rfl, rfl⟩ := Prod.mk.inj (Except.ok.inj hcall)
  let more := makeSetupStageTRB setupData type :: issuerTRB dirIn buf len :: extra
  have hmore : more.length = trbCount buf := by
    simp only [more, List.length_cons]
    omega
  have hcount := trbCount_le buf
  have hentry : mapEntry tr' = mapEntry tr := by
    funext o
    rw [mapEntry, mapEntry, Ring.slotAddr, Ring.slotAddr, hbuf]
  have hroom : s.dev.setupStageMap.entries.length < 16 := by
    rw [h.entries.length_eq, List.length_map]
    have := h.length_le
    omega
  refine ⟨tr', history ++ more, ?_⟩
  constructor
  case ring => exact noteTransfer_ring _ _ _ _
  case remembers => exact hremembers
  case pushes =>
    rw [List.length_append, hmore, h.pushes]
  case onRing =>
    intro o ho
    rcases List.mem_append.mp ho with hold | hnew
    · refine (h.onRing o hold).append hbuf more ?_
      rw [hmore, ← h.pushes]
      exact hwindow o hold
    · obtain rfl := List.mem_singleton.mp hnew
      have hat : ∀ k, (history ++ more)[history.length + k]? = more[k]? := fun k => by
        rw [List.getElem?_append_right (Nat.le_add_right _ _), Nat.add_sub_cancel_left]
      constructor
      case len_nonneg => exact h0
      case len_lt => exact hlen
      case window =>
        rw [List.length_append, hmore, h.pushes]
        exact Nat.add_le_add_left (hcount.trans (by omega)) _
      case setup => exact ⟨type, by rw [h.pushes]; exact hat 0⟩
      case issuer => exact ⟨dirIn, by rw [h.pushes]; exact hat 1⟩
      case ioc =>
        have hslot : tr'.slotAddr = tr.slotAddr := funext fun i => by
          rw [Ring.slotAddr, Ring.slotAddr, hbuf]
        rw [h.pushes, hslot]
  case spaced =>
    refine List.pairwise_append.mpr ⟨h.spaced, List.pairwise_singleton _ _, fun o ho x hx => ?_⟩
    obtain rfl := List.mem_singleton.mp hx
    exact (h.onRing o ho).pushed.trans (Nat.le_of_eq h.pushes.symm)
  case entries =>
    rw [hentry, List.map_append, List.map_singleton, mapEntry, h.pushes]
    have hput := s.dev.setupStageMap.entries_put
      (tr.slotAddr ((history.length + 1) % 31)) (tr.slotAddr (history.length % 31)) hroom
    have hmap : (s.dev.addWaiter setupData issuer).setupStageMap = s.dev.setupStageMap := by
      obtain ⟨eventWaiters, hadd⟩ := addWaiter_fields s.dev setupData issuer
      rw [hadd]
    rw [← hmap] at hput
    refine hput.trans ?_
    rw [hmap]
    exact (h.entries.cons _).trans (List.perm_append_singleton _ _).symm

/-- The decoding of a success or short-packet event takes the entry of the
transfer. -/
theorem Inv.decode_found (h : s.Inv tr history) (m : Dma) {o : Transfer}
    (ho : o ∈ s.outstanding) {trb : Trb} (hioc : trb.parameter = o.ioc)
    (hcode : eventCompletionCode trb = 1 ∨ eventCompletionCode trb = 13) :
    ∃ issuer setupAddr, decodeTransferEvent m s.dev trb =
      (decodeControl m { s.dev with setupStageMap := s.dev.setupStageMap.delete o.ioc } issuer
        setupAddr (eventTransferLength trb),
        { s.dev with setupStageMap := s.dev.setupStageMap.delete o.ioc }) := by
  obtain ⟨i, dirIn, hissuerAt, hissuerMem⟩ := h.issuer ho
  have hmap := h.get ho
  rw [← hioc] at hissuerAt hmap ⊢
  exact ⟨_, _, decodeTransferEvent_found m h.ring hcode hissuerAt hissuerMem hmap⟩

/-- The transfer `o` is settled: its entry is deleted from the map, and the entries of the
others stay. -/
theorem Inv.settle (h : s.Inv tr history) {o : Transfer} (ho : o ∈ s.outstanding) :
    Inv ⟨{ s.dev with setupStageMap := s.dev.setupStageMap.delete o.ioc }, s.pushes,
      s.outstanding.erase o⟩ tr history where
  ring := h.ring
  remembers := h.remembers
  pushes := h.pushes
  onRing := fun x hx => h.onRing x (List.mem_of_mem_erase hx)
  spaced := h.spaced.sublist List.erase_sublist
  entries := ArrayMap.entries_delete_of_perm h.entries h.ioc_nodup ho

/-- Step lemma for a Transfer Event. -/
theorem Inv.event (h : s.Inv tr history) {m : Dma} {o : Transfer} {trb : Trb}
    (ho : o ∈ s.outstanding) (hioc : trb.parameter = o.ioc)
    (hcode : eventCompletionCode trb = 1 ∨ eventCompletionCode trb = 13)
    (hres : ((eventTransferLength trb).toNat : Int) ≤ o.len) :
    Inv ⟨(decodeTransferEvent m s.dev trb).2, s.pushes, s.outstanding.erase o⟩ tr history := by
  rw [h.decode m ho hioc hcode hres]
  exact h.settle ho

/-- **Step lemma.** A request, a completion or a report of the controller keeps the invariant,
with the history of pushes that belongs to it. -/
theorem Inv.step (h : s.Inv tr history) {s' : ControlSystem} (hstep : Step s s') :
    ∃ tr' history', s'.Inv tr' history' := by
  cases hstep with
  | request h0 hlen hwindow hring hpush hcall =>
      obtain rfl := Option.some.inj (h.ring.symm.trans hring)
      exact h.request h0 hlen hwindow hpush hcall
  | event ho hioc hcode hres => exact ⟨tr, history, h.event ho hioc hcode hres⟩
  | other hring hmap =>
      refine ⟨tr, history, hring.trans h.ring, h.remembers, h.pushes, h.onRing, h.spaced, ?_⟩
      exact (congrArg ArrayMap.entries hmap) ▸ h.entries

/-- **Run lemma.** -/
theorem inv_of_run {s₀ s : ControlSystem} (h₀ : ∃ tr history, s₀.Inv tr history)
    (hrun : ReflTransGen Step s₀ s) : ∃ tr history, s.Inv tr history := by
  induction hrun with
  | refl => exact h₀
  | tail _ hstep ih =>
      obtain ⟨tr, history, h⟩ := ih
      exact h.step hstep

/-- The invariant holds after `AllocTransferRing`: the ring is empty, and so are the map and the
list of outstanding transfers. -/
theorem inv_start {dev₀ dev : Device} {pool pool' : Pool}
    (hempty : dev₀.setupStageMap = .empty nullptr)
    (halloc : dev₀.allocTransferRing 0 32 pool = (some tr, dev, pool'))
    (hbuf : tr.buf ≠ nullptr) : (start dev).Inv tr [] := by
  obtain ⟨rfl, hremembers⟩ := allocTransferRing_remembers halloc hbuf
  constructor
  case ring => simp [start, setRing]
  case remembers => exact hremembers
  case pushes => rfl
  case onRing => exact fun o ho => absurd ho List.not_mem_nil
  case spaced => exact List.Pairwise.nil
  case entries =>
    have hentries : (dev₀.setRing 0 (some tr)).setupStageMap.entries = [] := by
      show dev₀.setupStageMap.entries = []
      rw [hempty, ArrayMap.entries_empty]
    exact List.Perm.of_eq hentries

/-- A request can always be made. -/
theorem Inv.can_request (h : s.Inv tr history) (dirIn : Bool) (setupData : SetupData) (buf : Addr)
    (len : Int) (issuer : Addr) : ∃ pushed dev',
      pushTransfer tr (dataType dirIn) dirIn (dataStatus dirIn) setupData buf len = .ok pushed ∧
        s.dev.control dirIn setupData buf len issuer = .ok (.kSuccess, dev') := by
  obtain ⟨type, extra, tr', hpush, -⟩ :=
    pushTransfer_remembers h.remembers dirIn setupData buf len
  exact ⟨_, _, hpush, control_eq h.ring dirIn setupData buf len issuer hpush⟩

/-- The rest of a completion, which may issue one more request, is a run as well, if the window
has room for that request. -/
theorem Inv.issues_run (h : s.Inv tr history) {err : Error} {dev' : Device}
    (hissues : Issues s.dev err dev')
    (hwindow : ∀ o ∈ s.outstanding, s.pushes + 3 ≤ o.first + 31) :
    ∃ s', ReflTransGen Step s s' ∧ s'.dev = dev' := by
  rcases hissues with hkeeps | ⟨dev₁, dirIn, setupData, buf, len, issuer, hkeeps, h0, hlen, hcall⟩
  · exact ⟨{ s with dev := dev' }, .single (.other hkeeps.ring hkeeps.stages), rfl⟩
  · have hother : Step s { s with dev := dev₁ } := .other hkeeps.ring hkeeps.stages
    have hring : dev₁.transferRings 0 = some tr := hkeeps.ring.trans h.ring
    obtain ⟨pushed, -, hpush, -⟩ := h.can_request dirIn setupData buf len issuer
    have hroom : ∀ o ∈ s.outstanding, s.pushes + trbCount buf ≤ o.first + 31 := by
      intro o ho
      have hcount := trbCount_le buf
      have := hwindow o ho
      omega
    have hrequest := Step.request (s := { s with dev := dev₁ }) h0 hlen hroom hring hpush hcall
    exact ⟨_, (ReflTransGen.single hother).tail hrequest, rfl⟩

end Invariant

/-- **The call of `OnTransferEventReceived` as a whole is a run**: the event
step and what `OnControlCompleted` does after it. -/
theorem onTransferEventReceived_run {s : ControlSystem} {tr : Ring} {history : List Trb}
    (h : s.Inv tr history) {m : Dma} {obs : DefaultObservers} {pool pool' : Pool} {o : Transfer}
    {trb : Trb} {err : Error} {dev' : Device} (ho : o ∈ s.outstanding)
    (hioc : trb.parameter = o.ioc)
    (hcode : eventCompletionCode trb = 1 ∨ eventCompletionCode trb = 13)
    (hres : ((eventTransferLength trb).toNat : Int) ≤ o.len)
    (hreserved : s.dev.ControlPipeReserved)
    (hwindow : ∀ x ∈ s.outstanding, s.pushes + 3 ≤ x.first + 31)
    (hcall : onTransferEventReceived m obs s.dev pool trb = .ok (err, dev', pool')) :
    ∃ s', ReflTransGen Step s s' ∧ s'.dev = dev' := by
  have hevent : Step s _ := .event (m := m) ho hioc hcode hres
  have hinv := h.event (m := m) ho hioc hcode hres
  rw [onTransferEventReceived, h.decode m ho hioc hcode hres] at hcall
  rw [h.decode m ho hioc hcode hres] at hevent hinv
  have hreserved' : Device.ControlPipeReserved { s.dev with
      setupStageMap := s.dev.setupStageMap.delete o.ioc } := hreserved
  have hissues := onControlCompleted_issues hreserved' hcall
  obtain ⟨s', hrun, hdev⟩ := hinv.issues_run hissues
    fun x hx => hwindow x (List.mem_of_mem_erase hx)
  exact ⟨s', ReflTransGen.head hevent hrun, hdev⟩

/-- **Control transfers come back as they were issued.**  On the ring of 32 TRBs
that `AllocTransferRing` creates, in every reachable state:

* at most 15 transfers are outstanding and each has its entry in the map of 16;
* every request succeeds;
* every success or short-packet event for an outstanding transfer reaches
  `OnControlCompleted` with the setup data and buffer of the request and the
  number of bytes transferred, 0 without a data stage. -/
theorem control_round_trip {dev₀ dev : Device} {tr : Ring} {pool pool' : Pool}
    (hempty : dev₀.setupStageMap = .empty nullptr)
    (halloc : dev₀.allocTransferRing 0 32 pool = (some tr, dev, pool'))
    (hbuf : tr.buf ≠ nullptr) {s : ControlSystem} (hrun : ReflTransGen Step (start dev) s) :
    s.outstanding.length ≤ 15 ∧
      s.dev.setupStageMap.entries.length = s.outstanding.length ∧
      (∀ dirIn setupData buf len issuer, ∃ dev',
        s.dev.control dirIn setupData buf len issuer = .ok (.kSuccess, dev')) ∧
      ∀ o ∈ s.outstanding, ∀ m obs pool trb, trb.parameter = o.ioc →
        eventCompletionCode trb = 1 ∨ eventCompletionCode trb = 13 →
        ((eventTransferLength trb).toNat : Int) ≤ o.len →
        (decodeTransferEvent m s.dev trb).1 = .control o.setupData o.buf
            (if o.buf = nullptr then 0 else o.len - (eventTransferLength trb).toNat) ∧
          onTransferEventReceived m obs s.dev pool trb =
            onControlCompleted m obs
              { s.dev with setupStageMap := s.dev.setupStageMap.delete o.ioc } pool o.setupData
              o.buf (if o.buf = nullptr then 0 else o.len - (eventTransferLength trb).toNat) := by
  obtain ⟨tr', history, h⟩ := inv_of_run ⟨tr, [], inv_start hempty halloc hbuf⟩ hrun
  refine ⟨h.length_le, ?_, fun dirIn setupData buf len issuer => ?_, ?_⟩
  · rw [h.entries.length_eq, List.length_map]
  · obtain ⟨-, dev', -, hcall⟩ := h.can_request dirIn setupData buf len issuer
    exact ⟨dev', hcall⟩
  · intro o ho m obs pool trb hioc hcode hres
    rw [onTransferEventReceived, h.decode m ho hioc hcode hres, complete]
    exact ⟨rfl, rfl⟩

/-- A device with its control ring, on a fresh pool. -/
def sampleAlloc : Option Ring × Device × Pool :=
  (Device.new 0x1000 1).allocTransferRing 0 32 (Pool.init samplePool)

theorem sampleAlloc_eq : ∃ tr, tr.buf ≠ nullptr ∧
    (Device.new 0x1000 1).allocTransferRing 0 32 (Pool.init samplePool) =
      (some tr, sampleAlloc.2.1, sampleAlloc.2.2) := by
  have hsome : sampleAlloc.1.isSome = true := by decide
  obtain ⟨tr, htr⟩ := Option.isSome_iff_exists.mp hsome
  have hall : ∀ t ∈ sampleAlloc.1, t.buf ≠ nullptr := by decide
  refine ⟨tr, hall tr htr, ?_⟩
  rw [← htr]
  rfl

/-- A request for 18 bytes of the device descriptor, and a completion that
reports them all transferred. -/
theorem control_round_trip_device_descriptor :
    ∃ s o, ReflTransGen Step (start sampleAlloc.2.1) s ∧ o ∈ s.outstanding ∧
      ∀ m trb, trb.parameter = o.ioc → eventCompletionCode trb = 1 →
        eventTransferLength trb = 0 →
        (decodeTransferEvent m s.dev trb).1 = .control ⟨128, 6, 256, 0, 18⟩ 0x2000 18 := by
  obtain ⟨tr, hbuf, halloc⟩ := sampleAlloc_eq
  have hinv := inv_start rfl halloc hbuf
  obtain ⟨pushed, dev', hpush, hcall⟩ :=
    hinv.can_request true ⟨128, 6, 256, 0, 18⟩ 0x2000 18 nullptr
  have hstep := Step.request (by decide) (by decide) (fun o ho => absurd ho List.not_mem_nil)
    hinv.ring hpush hcall
  refine ⟨_, _, .single hstep, List.mem_singleton_self _, fun m trb hioc hcode hres => ?_⟩
  have hlen : ((eventTransferLength trb).toNat : Int) ≤ 18 := by rw [hres]; decide
  obtain ⟨-, -, -, hall⟩ := control_round_trip rfl halloc hbuf (.single hstep)
  obtain ⟨hdecode, -⟩ := hall _ (List.mem_singleton_self _) m ⟨false, false⟩
    (Pool.init samplePool) trb hioc (Or.inl hcode) hlen
  rw [hdecode, hres]
  rfl

end ControlSystem

end Mikanos.Xhci
