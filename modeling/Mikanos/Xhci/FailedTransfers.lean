import Mikanos.Xhci.ControlTransfers

/-!
# Control transfers that fail

`OnTransferEventReceived` returns before it looks at `setup_stage_map_` when a
Transfer Event reports a failure, so the entry of a failed transfer stays.  Here
the runs of `ControlTransfers` are extended by such events, and by requests of
any length.

The proof follows each run along a second one, in which every event deletes the
entry of its transfer.  That one satisfies the invariant of `ControlTransfers`
all the time, because the map has no influence on what is pushed.  The two maps
are the same until the first failure; from then on the driver's map holds more
entries than there are transfers under way, whatever happens later
(`Tracks.step`).
-/

namespace Mikanos.Xhci

open Mikanos.Usb

namespace Device

/-- The length a Data Stage TRB asks for. -/
def trbLength (len : Int) : Int := ((BitVec.ofInt 17 len).toNat : Int)

/-- A request for `len` bytes is one for as many as its TRB can ask for. -/
theorem pushTransfer_trbLength (tr : Ring) (type : BitVec 2) (dirIn : Bool) (status : Trb)
    (setupData : SetupData) (buf : Addr) (len : Int) :
    pushTransfer tr type dirIn status setupData buf (trbLength len) =
      pushTransfer tr type dirIn status setupData buf len := by
  have hlength : BitVec.ofInt 17 (trbLength len) = BitVec.ofInt 17 len := by
    rw [trbLength, BitVec.ofInt_natCast, BitVec.ofNat_toNat, BitVec.setWidth_eq]
  rw [pushTransfer, makeDataStageTRB, hlength, pushTransfer, makeDataStageTRB]

theorem trbLength_bounds (len : Int) : 0 ≤ trbLength len ∧ trbLength len < 2 ^ 17 := by
  have hlt := (BitVec.ofInt 17 len).isLt
  unfold trbLength
  omega

end Device

namespace ControlSystem

open Device

/-! ## Runs with failures -/

/-- What happens on the control ring when transfers may fail, and whether it is
the failure of one.  An event may carry any completion code and any length. -/
inductive AnyStep : ControlSystem → Bool → ControlSystem → Prop
  | request {s : ControlSystem} {dirIn : Bool} {setupData : SetupData} {buf : Addr} {len : Int}
      {issuer : Addr} {tr : Ring} {pushed : Addr × Addr × Ring} {err : Error} {dev' : Device}
      (hwindow : ∀ o ∈ s.outstanding, s.pushes + trbCount buf ≤ o.first + 31)
      (hring : s.dev.transferRings 0 = some tr)
      (hpush : pushTransfer tr (dataType dirIn) dirIn (dataStatus dirIn) setupData buf len =
        .ok pushed)
      (hcall : s.dev.control dirIn setupData buf len issuer = .ok (err, dev')) :
      AnyStep s false ⟨dev', s.pushes + trbCount buf,
        s.outstanding ++ [⟨setupData, buf, trbLength len, pushed.1, s.pushes⟩]⟩
  | event {s : ControlSystem} {m : Dma} {o : Transfer} {trb : Trb} (ho : o ∈ s.outstanding)
      (hioc : trb.parameter = o.ioc) :
      AnyStep s (transferFailed trb)
        ⟨(decodeTransferEvent m s.dev trb).2, s.pushes, s.outstanding.erase o⟩
  | other {s : ControlSystem} {dev' : Device}
      (hring : dev'.transferRings 0 = s.dev.transferRings 0)
      (hmap : dev'.setupStageMap = s.dev.setupStageMap) :
      AnyStep s false { s with dev := dev' }

/-- A run from `s₀` with a number of failed transfers. -/
inductive Run (s₀ : ControlSystem) : Nat → ControlSystem → Prop
  | start : Run s₀ 0 s₀
  | step {failures : Nat} {s s' : ControlSystem} {failed : Bool} (hrun : Run s₀ failures s)
      (hstep : AnyStep s failed s') : Run s₀ (failures + failed.toNat) s'

/-- The bookkeeping the driver relies on: the keys of the map are the positions
the transfers under way are reported at, each once, so that a success event for
one of them finds its entry. -/
structure Bookkeeping (s : ControlSystem) : Prop where
  keys : (s.dev.setupStageMap.entries.map Prod.fst).Perm (s.outstanding.map Transfer.ioc)
  once : (s.outstanding.map Transfer.ioc).Nodup
  found : ∀ o ∈ s.outstanding, ∀ m trb, trb.parameter = o.ioc → transferFailed trb = false →
    (decodeTransferEvent m s.dev trb).1 ≠ .failed .kNoCorrespondingSetupStage

/-! ## The run in which every event deletes its entry -/

/-- The same transfers with another map. -/
def withStages (s : ControlSystem) (stages : ArrayMap Addr Addr 16) : ControlSystem :=
  { s with dev := { s.dev with setupStageMap := stages } }

/-- The invariant of runs with failures. -/
structure Tracks (s : ControlSystem) (failures : Nat) (tr : Ring) (history : List Trb)
    (stages : ArrayMap Addr Addr 16) : Prop where
  ideal : (s.withStages stages).Inv tr history
  same : failures = 0 → stages = s.dev.setupStageMap
  leaked : 0 < failures → s.outstanding.length < s.dev.setupStageMap.entries.length

section Tracking

variable {s : ControlSystem} {failures : Nat} {tr : Ring} {history : List Trb}
  {stages : ArrayMap Addr Addr 16}

/-- Without a failure the two maps are the same, so the run satisfies the invariant of runs
without failures. -/
theorem Tracks.inv (h : s.Tracks 0 tr history stages) : s.Inv tr history := by
  have hsame := h.same rfl
  subst hsame
  exact h.ideal

/-- The map of Setup Stage TRBs has no influence on what a request does to the rest of the
device, and a request puts one entry into it. -/
theorem control_withStages (stages : ArrayMap Addr Addr 16) {dev : Device}
    (hring : dev.transferRings 0 = some tr)
    {dirIn : Bool} {setupData : SetupData} {buf : Addr} {len : Int} {issuer : Addr}
    {pushed : Addr × Addr × Ring} {err : Error} {dev' : Device}
    (hpush : pushTransfer tr (dataType dirIn) dirIn (dataStatus dirIn) setupData buf len =
      .ok pushed)
    (hcall : dev.control dirIn setupData buf len issuer = .ok (err, dev')) :
    dev'.setupStageMap = dev.setupStageMap.put pushed.1 pushed.2.1 ∧
      Device.control { dev with setupStageMap := stages } dirIn setupData buf len issuer =
        .ok (.kSuccess, { dev' with setupStageMap := stages.put pushed.1 pushed.2.1 }) := by
  rw [control_eq hring dirIn setupData buf len issuer hpush] at hcall
  obtain ⟨-, rfl⟩ := Prod.mk.inj (Except.ok.inj hcall)
  have hring' : Device.transferRings { dev with setupStageMap := stages } 0 = some tr := hring
  rw [control_eq hring' dirIn setupData buf len issuer hpush]
  unfold addWaiter
  split
  · exact ⟨rfl, rfl⟩
  · exact ⟨rfl, rfl⟩

/-- A request, with the length its TRB asks for. -/
theorem control_trbLength {dev dev' : Device} (hring : dev.transferRings 0 = some tr)
    {dirIn : Bool} {setupData : SetupData} {buf : Addr} {len : Int} {issuer : Addr}
    {pushed : Addr × Addr × Ring} {err : Error}
    (hpush : pushTransfer tr (dataType dirIn) dirIn (dataStatus dirIn) setupData buf len =
      .ok pushed)
    (hcall : dev.control dirIn setupData buf len issuer = .ok (err, dev')) :
    dev.control dirIn setupData buf (trbLength len) issuer = .ok (err, dev') := by
  have hpush' := hpush
  rw [← pushTransfer_trbLength] at hpush'
  rw [← hcall, control_eq hring dirIn setupData buf len issuer hpush,
    control_eq hring dirIn setupData buf (trbLength len) issuer hpush']

/-- **Step lemma for a request**: it is put into both maps; in the real one, which may be full
of what failures have left, more entries stay than transfers are outstanding. -/
theorem Tracks.request (h : s.Tracks failures tr history stages) {dirIn : Bool}
    {setupData : SetupData} {buf : Addr} {len : Int} {issuer : Addr}
    {pushed : Addr × Addr × Ring} {err : Error} {dev' : Device}
    (hwindow : ∀ o ∈ s.outstanding, s.pushes + trbCount buf ≤ o.first + 31)
    (hpush : pushTransfer tr (dataType dirIn) dirIn (dataStatus dirIn) setupData buf len =
      .ok pushed)
    (hcall : s.dev.control dirIn setupData buf len issuer = .ok (err, dev')) :
    ∃ tr' history' stages', Tracks ⟨dev', s.pushes + trbCount buf,
      s.outstanding ++ [⟨setupData, buf, trbLength len, pushed.1, s.pushes⟩]⟩ failures tr'
      history' stages' := by
  have hring : s.dev.transferRings 0 = some tr := h.ideal.ring
  have hcall' := control_trbLength hring hpush hcall
  have hpush' := hpush
  rw [← pushTransfer_trbLength] at hpush'
  obtain ⟨hput, hideal⟩ := control_withStages stages hring hpush' hcall'
  obtain ⟨h0, hlen⟩ := trbLength_bounds len
  obtain ⟨tr', history', hinv⟩ := h.ideal.request h0 hlen hwindow hpush' hideal
  refine ⟨tr', history', stages.put pushed.1 pushed.2.1, hinv, ?_, ?_⟩
  · intro hzero
    simp only
    rw [hput, h.same hzero]
  · intro hpos
    have hle : s.outstanding.length + 1 ≤ 15 := by
      have := hinv.length_le
      rwa [List.length_append, List.length_singleton] at this
    have hleaked := h.leaked hpos
    simp only [List.length_append, List.length_singleton]
    rw [hput]
    rcases Nat.lt_or_eq_of_le s.dev.setupStageMap.length_entries_le with hroom | hfull
    · rw [(s.dev.setupStageMap.entries_put _ _ hroom).length_eq, List.length_cons]
      omega
    · rw [ArrayMap.entries_put_full _ _ _ hfull, hfull]
      omega

/-- **Step lemma for a Transfer Event**: a success deletes the entry of the transfer, and a
failure leaves it in the map for good. -/
theorem Tracks.event (h : s.Tracks failures tr history stages) {m : Dma} {o : Transfer} {trb : Trb}
    (ho : o ∈ s.outstanding) (hioc : trb.parameter = o.ioc) :
    Tracks ⟨(decodeTransferEvent m s.dev trb).2, s.pushes, s.outstanding.erase o⟩
      (failures + (transferFailed trb).toNat) tr history (stages.delete o.ioc) := by
  have hsettled := h.ideal.settle ho
  have hlength : (s.outstanding.erase o).length + 1 = s.outstanding.length := by
    rw [List.length_erase_of_mem ho]
    have := List.length_pos_of_mem ho
    omega
  cases hfailed : transferFailed trb with
  | true =>
      rw [decodeTransferEvent_failed m s.dev hfailed]
      refine ⟨hsettled, fun hzero => absurd hzero (Nat.succ_ne_zero _), fun _ => ?_⟩
      have hle : s.outstanding.length ≤ s.dev.setupStageMap.entries.length := by
        rcases Nat.eq_zero_or_pos failures with rfl | hpos
        · have hentries := h.inv.entries.length_eq
          rw [List.length_map] at hentries
          omega
        · exact Nat.le_of_lt (h.leaked hpos)
      simp only
      omega
  | false =>
      have hcode := transferFailed_eq_false.mp hfailed
      rcases decodeTransferEvent_cases m s.dev trb with hkeep | hdelete
      · -- Without a failure the entry is there, so this is a map that lost it.
        refine ⟨?_, fun hzero => ?_, fun hpos => ?_⟩
        · rw [hkeep]
          exact hsettled
        · obtain rfl : failures = 0 := hzero
          obtain ⟨issuer, setupAddr, hfound⟩ := h.inv.decode_found m ho hioc hcode
          rw [hfound]
          simp only
          rw [h.same rfl]
        · have hleaked := h.leaked hpos
          simp only
          rw [hkeep]
          omega
      · rw [hdelete, hioc]
        refine ⟨hsettled, fun hzero => ?_, fun hpos => ?_⟩
        · obtain rfl : failures = 0 := hzero
          simp only
          rw [h.same rfl]
        · have hleaked := h.leaked hpos
          have hdeleted := s.dev.setupStageMap.length_entries_delete o.ioc
          simp only
          omega

/-- **Step lemma.** Any step keeps the comparison with a map without failures, and counts one
failure more if it was one. -/
theorem Tracks.step (h : s.Tracks failures tr history stages) {failed : Bool} {s' : ControlSystem}
    (hstep : AnyStep s failed s') :
    ∃ tr' history' stages', s'.Tracks (failures + failed.toNat) tr' history' stages' := by
  cases hstep with
  | request hwindow hring hpush hcall =>
      obtain rfl : tr = _ := Option.some.inj (h.ideal.ring.symm.trans hring)
      exact h.request hwindow hpush hcall
  | event ho hioc => exact ⟨tr, history, stages.delete _, h.event ho hioc⟩
  | other hring hmap =>
      refine ⟨tr, history, stages, ?_, ?_, ?_⟩
      · exact ⟨hring.trans h.ideal.ring, h.ideal.remembers, h.ideal.pushes, h.ideal.onRing,
          h.ideal.spaced, h.ideal.entries⟩
      · exact fun hzero => (h.same hzero).trans hmap.symm
      · intro hpos
        simp only
        rw [hmap]
        exact h.leaked hpos

/-- **Run lemma**, by induction over the steps: a run that starts with the invariant is tracked
with its number of failures. -/
theorem tracks_of_run {s₀ : ControlSystem} (h₀ : s₀.Inv tr history) (hrun : Run s₀ failures s) :
    ∃ tr' history' stages', s.Tracks failures tr' history' stages' := by
  induction hrun with
  | start =>
      exact ⟨tr, history, s₀.dev.setupStageMap, h₀, fun _ => rfl,
        fun h => absurd h (Nat.lt_irrefl 0)⟩
  | step _ hstep ih =>
      obtain ⟨tr', history', stages', h⟩ := ih
      exact h.step hstep

/-- **The bookkeeping survives exactly until the first failure**: after it the map has more
entries than there are transfers outstanding, so its keys cannot be theirs. -/
theorem Tracks.bookkeeping_iff (h : s.Tracks failures tr history stages) :
    s.Bookkeeping ↔ failures = 0 := by
  constructor
  · intro hbook
    rcases Nat.eq_zero_or_pos failures with hzero | hpos
    · exact hzero
    · have hkeys := hbook.keys.length_eq
      rw [List.length_map, List.length_map] at hkeys
      have := h.leaked hpos
      omega
  · rintro rfl
    refine ⟨?_, h.inv.ioc_nodup, ?_⟩
    · have hkeys := h.inv.entries.map Prod.fst
      rwa [List.map_map] at hkeys
    · intro o ho m trb hioc hfailed
      obtain ⟨issuer, setupAddr, hfound⟩ :=
        h.inv.decode_found m ho hioc (transferFailed_eq_false.mp hfailed)
      rw [hfound]
      simp only [decodeControl]
      split
      · exact Completion.noConfusion
      · split
        · exact Completion.noConfusion
        · decide

/-- What a completion function does, a request or nothing, is a run without failure, if the
window has room for one more request. -/
theorem Tracks.issues_run (h : s.Tracks failures tr history stages) {s₀ : ControlSystem} {n : Nat}
    (hrun : Run s₀ n s) {err : Error} {dev' : Device} (hissues : Issues s.dev err dev')
    (hwindow : ∀ o ∈ s.outstanding, s.pushes + 3 ≤ o.first + 31) :
    ∃ s', Run s₀ n s' ∧ s'.dev = dev' := by
  rcases hissues with hkeeps | ⟨dev₁, dirIn, setupData, buf, len, issuer, hkeeps, -, -, hcall⟩
  · exact ⟨{ s with dev := dev' }, hrun.step (.other hkeeps.ring hkeeps.stages), rfl⟩
  · have hring : dev₁.transferRings 0 = some tr := hkeeps.ring.trans h.ideal.ring
    obtain ⟨type, extra, tr', hpush, -⟩ :=
      pushTransfer_remembers h.ideal.remembers dirIn setupData buf len
    have hroom : ∀ o ∈ s.outstanding, s.pushes + trbCount buf ≤ o.first + 31 := by
      intro o ho
      have hcount := trbCount_le buf
      have := hwindow o ho
      omega
    have hother : Run s₀ n { s with dev := dev₁ } := hrun.step (.other hkeeps.ring hkeeps.stages)
    have hrequest : Run s₀ n ⟨dev', s.pushes + trbCount buf,
        s.outstanding ++ [⟨setupData, buf, trbLength len, _, s.pushes⟩]⟩ :=
      hother.step (.request hroom hring hpush hcall)
    exact ⟨_, hrequest, rfl⟩

/-- **The call of `OnTransferEventReceived` as a whole is a run**, with one
failure if the event reports one. -/
theorem Tracks.call_run (h : s.Tracks failures tr history stages) {m : Dma}
    {obs : DefaultObservers} {pool pool' : Pool} {o : Transfer} {trb : Trb} {err : Error}
    {dev' : Device} (ho : o ∈ s.outstanding) (hioc : trb.parameter = o.ioc)
    (hreserved : s.dev.ControlPipeReserved)
    (hwindow : ∀ x ∈ s.outstanding, s.pushes + 3 ≤ x.first + 31)
    (hcall : onTransferEventReceived m obs s.dev pool trb = .ok (err, dev', pool')) :
    ∃ s', Run s (transferFailed trb).toNat s' ∧ s'.dev = dev' := by
  have hevent : Run s (0 + (transferFailed trb).toNat) _ := Run.start.step (.event (m := m) ho hioc)
  rw [Nat.zero_add] at hevent
  have htracks := h.event (m := m) ho hioc
  have hdrivers : (decodeTransferEvent m s.dev trb).2.drivers = s.dev.drivers := by
    rcases decodeTransferEvent_cases m s.dev trb with hdecoded | hdecoded <;> rw [hdecoded]
  unfold onTransferEventReceived at hcall
  generalize hdecode : decodeTransferEvent m s.dev trb = decoded at hcall hevent htracks hdrivers
  obtain ⟨completion, dev₁⟩ := decoded
  cases completion with
  | failed err =>
      cases hcall
      exact ⟨_, hevent, rfl⟩
  | interrupt epId buf len =>
      obtain ⟨i, dirIn, hissuerAt, hissuerMem⟩ := h.ideal.issuer ho
      have htype := (decodeTransferEvent_interrupt hdecode).1
      rw [hioc, trbAt_control_ring m s.dev h.ideal.ring hissuerAt, ← Trb.trbType_stamp _ false,
        hissuerMem, Trb.trbType_stamp] at htype
      exact absurd htype (issuerTRB_trbType_ne dirIn o.buf o.len)
  | control setupData buf len =>
      have hreserved₁ : dev₁.ControlPipeReserved := by
        unfold ControlPipeReserved
        simp only at hdrivers
        rw [hdrivers]
        exact hreserved
      have hissues := onControlCompleted_issues hreserved₁ hcall
      exact htracks.issues_run hevent hissues fun x hx => hwindow x (List.mem_of_mem_erase hx)

end Tracking

/-! ## Sixteen failures -/

/-- An event that reports a transaction error. -/
def errorEvent (ioc : Addr) : Trb := transferEvent ioc 4 0 1

theorem errorEvent_failed (ioc : Addr) : transferFailed (errorEvent ioc) = true := by
  have hcode := (transferEvent_fields ioc 4 0 1).2.1
  unfold transferFailed errorEvent
  rw [hcode]
  decide

/-- The state after `n` requests without data that have all failed. -/
structure Leaked (buf : Addr) (n : Nat) (s : ControlSystem) : Prop where
  ring : ∃ tr history, s.dev.transferRings 0 = some tr ∧ tr.buf = buf ∧
    tr.Remembers 32 history ∧ history.length = 2 * n
  pushes : s.pushes = 2 * n
  outstanding : s.outstanding = []
  length : s.dev.setupStageMap.entries.length = n
  keys : ∀ e ∈ s.dev.setupStageMap.entries, ∃ i, i < n ∧ e.1 = trbAddr buf ((2 * i + 1) % 31)

/-- The transfer that comes after `n` others without data. -/
def nextTransfer (buf : Addr) (n : Nat) : Transfer :=
  ⟨setConfigurationData 1, nullptr, 0, trbAddr buf ((2 * n + 1) % 31), 2 * n⟩

/-- One more request of the example, while the entries of earlier failures fill the map up to
its number `n`. -/
theorem Leaked.request {buf : Addr} {n : Nat} {s : ControlSystem} (h : Leaked buf n s) :
    ∃ dev' tr' history' setupAddr,
      AnyStep s false ⟨dev', 2 * n + 2, [nextTransfer buf n]⟩ ∧
      dev'.setupStageMap = s.dev.setupStageMap.put (nextTransfer buf n).ioc setupAddr ∧
      dev'.transferRings 0 = some tr' ∧ tr'.buf = buf ∧ tr'.Remembers 32 history' ∧
      history'.length = 2 * n + 2 ∧ history'[2 * n + 1]? = some (issuerTRB false nullptr 0) := by
  obtain ⟨tr, history, hring, hbuf, hremembers, hlength⟩ := h.ring
  obtain ⟨type, extra, tr', hpush, hbuf', hremembers', hextra⟩ :=
    pushTransfer_remembers hremembers false (setConfigurationData 1) nullptr 0
  rw [hlength, Ring.slotAddr, Ring.slotAddr, hbuf] at hpush
  have hcall := control_eq hring false (setConfigurationData 1) nullptr 0 nullptr hpush
  have hwindow : ∀ o ∈ s.outstanding, s.pushes + trbCount nullptr ≤ o.first + 31 := by
    intro o ho
    rw [h.outstanding] at ho
    exact absurd ho List.not_mem_nil
  have hstep := AnyStep.request hwindow hring hpush hcall
  obtain ⟨hput, -⟩ := control_withStages s.dev.setupStageMap hring hpush hcall
  rw [h.pushes, h.outstanding] at hstep
  have hcount : extra.length = 0 := by
    rw [trbCount, if_neg (not_not.mpr rfl)] at hextra
    omega
  refine ⟨_, tr', _, _, hstep, hput, noteTransfer_ring _ _ _ _, hbuf'.trans hbuf, hremembers',
    ?_, ?_⟩
  · rw [List.length_append, hlength, List.length_cons, List.length_cons, hcount]
  · rw [List.getElem?_append_right (by omega), hlength, Nat.add_sub_cancel_left]
    rfl

/-- One more failure leaves one more entry behind, as long as the map has a free slot for it. -/
theorem Leaked.fail {buf : Addr} {n : Nat} {s₀ s : ControlSystem} (h : Leaked buf n s) (hn : n < 16)
    (hrun : Run s₀ n s) : ∃ s', Run s₀ (n + 1) s' ∧ Leaked buf (n + 1) s' := by
  obtain ⟨dev', tr', history', setupAddr, hstep, hput, hring, hbuf, hremembers, hlength, -⟩ :=
    h.request
  let ioc := (nextTransfer buf n).ioc
  have hevent := AnyStep.event (s := ⟨dev', 2 * n + 2, [nextTransfer buf n]⟩)
    (m := ⟨fun _ => Trb.zero, fun _ => []⟩) (List.mem_singleton_self _)
    (transferEvent_fields ioc 4 0 1).1
  have hfailed : transferFailed (transferEvent ioc 4 0 1) = true := errorEvent_failed ioc
  rw [decodeTransferEvent_failed _ _ hfailed, hfailed] at hevent
  have hentries := s.dev.setupStageMap.entries_put ioc setupAddr (by rw [h.length]; exact hn)
  rw [← hput] at hentries
  refine ⟨_, (hrun.step hstep).step hevent, ⟨tr', history', hring, hbuf, hremembers, ?_⟩, ?_, ?_,
    ?_,
    ?_⟩
  · rw [hlength, Nat.mul_succ]
  · exact (Nat.mul_succ 2 n).symm
  · exact List.erase_cons_head _ _
  · rw [hentries.length_eq, List.length_cons, h.length]
  · intro e he
    rcases List.mem_cons.mp (hentries.mem_iff.mp he) with rfl | hold
    · exact ⟨n, Nat.lt_succ_self n, rfl⟩
    · obtain ⟨i, hi, hkey⟩ := h.keys e hold
      exact ⟨i, Nat.lt_succ_of_lt hi, hkey⟩

/-- Any number of failures up to the size of the map. -/
theorem leaked_run {s₀ : ControlSystem} {buf : Addr} (h₀ : Leaked buf 0 s₀) (n : Nat)
    (hn : n ≤ 16) :
    ∃ s, Run s₀ n s ∧ Leaked buf n s := by
  induction n with
  | zero => exact ⟨s₀, .start, h₀⟩
  | succ n ih =>
      obtain ⟨s, hrun, h⟩ := ih (by omega)
      exact h.fail (by omega) hrun

/-- A fresh control ring has leaked nothing yet, so the example can start from it. -/
theorem leaked_start : ∃ buf, Leaked buf 0 (start sampleAlloc.2.1) := by
  obtain ⟨tr, hbuf, halloc⟩ := sampleAlloc_eq
  have hinv := inv_start rfl halloc hbuf
  have hentries := hinv.entries.eq_nil
  refine ⟨tr.buf, ⟨tr, [], hinv.ring, rfl, hinv.remembers, rfl⟩, rfl, rfl, ?_, ?_⟩
  · rw [hentries]
    rfl
  · intro e he
    rw [hentries] at he
    exact absurd he List.not_mem_nil

/-- **Setup-stage bookkeeping.**  On the ring of 32 TRBs that `AllocTransferRing`
creates, with transfers that may fail: the keys of `setup_stage_map_` are
exactly the awaited positions, and no success event misses its entry, as long
as no transfer of the run has failed, and never again after one has. -/
theorem setup_stages_exact_iff {dev₀ dev : Device} {tr : Ring} {pool pool' : Pool}
    (hempty : dev₀.setupStageMap = .empty nullptr)
    (halloc : dev₀.allocTransferRing 0 32 pool = (some tr, dev, pool'))
    (hbuf : tr.buf ≠ nullptr) {failures : Nat} {s : ControlSystem}
    (hrun : Run (start dev) failures s) : s.Bookkeeping ↔ failures = 0 := by
  obtain ⟨tr', history, stages, h⟩ := tracks_of_run (inv_start hempty halloc hbuf) hrun
  exact h.bookkeeping_iff

/-- One request under way, and the same after its failure: the bookkeeping is exact before it
and no longer after it. -/
theorem setup_stages_exact_iff_one_failure :
    ∃ s s', Run (start sampleAlloc.2.1) 0 s ∧ s.outstanding.length = 1 ∧ s.Bookkeeping ∧
      Run (start sampleAlloc.2.1) 1 s' ∧ ¬ s'.Bookkeeping := by
  obtain ⟨tr, hbuf, halloc⟩ := sampleAlloc_eq
  obtain ⟨buf, h₀⟩ := leaked_start
  obtain ⟨dev', -, -, -, hstep, -⟩ := h₀.request
  obtain ⟨s', hrun', -⟩ := h₀.fail (by omega) .start
  have hrun := Run.start.step hstep
  exact ⟨_, s', hrun, rfl, (setup_stages_exact_iff rfl halloc hbuf hrun).mpr rfl, hrun',
    fun hbook => absurd ((setup_stages_exact_iff rfl halloc hbuf hrun').mp hbook) (by decide)⟩

/-- After 16 failures the map is full, and the next transfer, the only one under
way, succeeds in vain. -/
theorem seventeenth_transfer_finds_no_setup_stage :
    ∃ s s' o, Run (start sampleAlloc.2.1) 16 s ∧ AnyStep s false s' ∧ s'.outstanding = [o] ∧
      ∀ m trb, trb.parameter = o.ioc → eventCompletionCode trb = 1 →
        (decodeTransferEvent m s'.dev trb).1 = .failed .kNoCorrespondingSetupStage := by
  obtain ⟨buf, h₀⟩ := leaked_start
  obtain ⟨s, hrun, h⟩ := leaked_run h₀ 16 (Nat.le_refl 16)
  obtain ⟨dev', tr', history', setupAddr, hstep, hput, hring, hbuf, hremembers, hlength, hissuer⟩ :=
    h.request
  refine ⟨s, _, nextTransfer buf 16, hrun, hstep, rfl, fun m trb hioc hcode => ?_⟩
  -- The full map has not taken the entry, and holds none of the same key.
  have hnone : dev'.setupStageMap.get trb.parameter = none := by
    rw [ArrayMap.get_eq_find, hput, ArrayMap.entries_put_full _ _ _ h.length, hioc,
      Option.map_eq_none_iff, List.find?_eq_none]
    intro e he hkey
    obtain ⟨i, hi, hat⟩ := h.keys e he
    have hkey : trbAddr buf ((2 * i + 1) % 31) = trbAddr buf ((2 * 16 + 1) % 31) :=
      hat.symm.trans (of_decide_eq_true hkey)
    have hslot := trbAddr_injective buf 31 (Nat.mod_lt _ (by omega)) (Nat.mod_lt _ (by omega))
      (by omega) hkey
    omega
  have hslot : tr'.slotAt trb.parameter = some 2 := by
    rw [hioc, Ring.slotAt, hremembers.size, hbuf]
    exact trbIndex_trbAddr buf (by omega) (by omega)
  have htype : (trbAt m dev' trb.parameter).trbType ≠ normalType := by
    have hmem := hremembers.recent _ _ hissuer (by omega)
    rw [trbAt_control_ring m dev' hring hslot, ← Trb.trbType_stamp _ false]
    rw [show (2 * 16 + 1) % (32 - 1) = 2 from rfl] at hmem
    rw [hmem, Trb.trbType_stamp]
    exact issuerTRB_trbType_ne false nullptr 0
  have hnot : ¬(eventCompletionCode trb ≠ 1 ∧ eventCompletionCode trb ≠ 13) := by tauto
  rw [decodeTransferEvent, if_neg hnot]
  simp only [if_neg htype, hnone]

end ControlSystem

end Mikanos.Xhci
