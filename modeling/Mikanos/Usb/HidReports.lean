import Mikanos.Usb.InputRuns

/-!
# What observers are told

A run tells the observers of a driver what its reports contain, and a driver
compares a report with what it has kept of the ones before.  Two things about
this depend on how the drivers read `buf_`:

* `HIDKeyboardDriver` looks for a key in all of `previous_buf_`, where the first
  two bytes of a report are no key codes;
* both drivers look at fixed places of `buf_`, whatever length was received.

Both are settled on the level of `seeAll`, which is the driver after a list of
reports, and carried over to runs by `counted_of_run`.
-/

namespace Mikanos.Xhci

open Mikanos.Usb

namespace InputSystem

open Device

/-! ## Drivers and their reports -/

/-- The size of a boot report. -/
def reportSize : HidKind → Nat
  | .keyboard => 8
  | .mouse => 3

/-- A driver that has not seen a report. -/
structure FreshDriver (d : HidDriver) : Prop where
  previous : d.previousBuf = List.replicate kBufferSize 0
  packet : d.inPacketSize = reportSize d.kind

/-- A driver that was just constructed has told nothing and remembers no report. -/
theorem freshDriver_new (kind : HidKind) (interfaceNumber : BitVec 8) (observers : Nat) :
    FreshDriver (newHidDriver kind interfaceNumber observers) where
  previous := rfl
  packet := by cases kind <;> rfl

/-- So has the driver of the example. -/
theorem freshDriver_sample (kind : HidKind) : FreshDriver (sampleDriver kind) where
  previous := rfl
  packet := by cases kind <;> rfl

/-- Reports do not change the kind of a driver, the size of its packets or the number of its
observers. -/
theorem seeAll_frame (d : HidDriver) (reports : List Report) :
    (seeAll d reports).kind = d.kind ∧ (seeAll d reports).inPacketSize = d.inPacketSize ∧
      (seeAll d reports).numObservers = d.numObservers := by
  induction reports using List.reverseRecOn with
  | nil => exact ⟨rfl, rfl, rfl⟩
  | append_singleton reports r ih =>
      rw [seeAll_append]
      cases r with
      | failed => exact ih
      | delivered bytes len => exact ih

/-- The driver at the end of a run. -/
theorem Ready.driver {s₀ s : InputSystem} {p : Addr} {d : HidDriver} {i : Fin 31} {tr : Ring}
    (h₀ : s₀.Ready p d i tr) {reports : List Report} (hrun : Run p i s₀ reports s) :
    s.dev.drivers p = some (seeAll d reports) := by
  obtain ⟨tr', hready⟩ := (counted_of_run h₀ hrun).ready
  exact hready.listening.driver

/-- `buf_` has its size whenever a report is delivered. -/
theorem Step.bytes_length {p : Addr} {i : Fin 31} {s s' : InputSystem} {r : Report}
    (hstep : Step p i s r s') {bytes : List (BitVec 8)} {len : Int}
    (hr : r = .delivered bytes len) :
    bytes.length = kBufferSize := by
  cases hstep with
  | failed => cases hr
  | delivered _ hbuf =>
      cases hr
      exact hbuf.size

/-- The bytes that are delivered are the whole buffer of the driver, of 1024 bytes. -/
theorem Run.bytes_length {p : Addr} {i : Fin 31} {s₀ s : InputSystem} {reports : List Report}
    (hrun : Run p i s₀ reports s) {bytes : List (BitVec 8)} {len : Int}
    (hr : .delivered bytes len ∈ reports) : bytes.length = kBufferSize := by
  induction hrun with
  | start => exact absurd hr List.not_mem_nil
  | step _ hstep ih =>
      rcases List.mem_append.mp hr with hold | hlast
      · exact ih hold
      · exact hstep.bytes_length (List.mem_singleton.mp hlast).symm

/-! ## Runs with given reports -/

/-- A buffer of which `k` bytes have been received. -/
def delivery (bytes : List (BitVec 8)) (k : Nat) : Report := .delivered bytes k

/-- A report with `v` behind it. -/
def padded (r : List (BitVec 8)) (v : BitVec 8) : List (BitVec 8) :=
  r ++ List.replicate (kBufferSize - r.length) v

/-- A report in a buffer of this size, -/
theorem padded_length {r : List (BitVec 8)} (hr : r.length ≤ 8) (v : BitVec 8) :
    (padded r v).length = kBufferSize := by
  unfold padded kBufferSize
  rw [List.length_append, List.length_replicate]
  omega

/-- which holds the report and a filling, -/
theorem mem_padded {r : List (BitVec 8)} {v x : BitVec 8} (hx : x ∈ padded r v) :
    x ∈ r ∨ x = v := by
  rcases List.mem_append.mp hx with hr | hv
  · exact Or.inl hr
  · exact Or.inr (List.eq_of_mem_replicate hv)

/-- and the filling behind the report. -/
theorem padded_getD {r : List (BitVec 8)} {j : Nat} (hj : r.length ≤ j) (hlt : j < kBufferSize)
    (v : BitVec 8) : (padded r v).getD j 0 = v := by
  unfold padded
  rw [List.getD_eq_getElem?_getD, List.getElem?_append_right hj, List.getElem?_replicate,
    if_pos (by omega)]
  rfl

/-- While a TRB is outstanding, any number of bytes up to the size of a report can be received,
with any bytes in the buffer. -/
theorem Ready.can_receive {s : InputSystem} {p : Addr} {d : HidDriver} {i : Fin 31} {tr : Ring}
    (h : s.Ready p d i tr) (hsome : s.outstanding ≠ []) (hp : hidBuffer p ≠ nullptr)
    {bytes : List (BitVec 8)} (hbytes : bytes.length = kBufferSize) {k : Nat}
    (hk : (k : Int) ≤ d.inPacketSize) :
    ∃ s', Step p i s (delivery bytes k) s' := by
  obtain ⟨q, hq⟩ := List.exists_mem_of_ne_nil _ hsome
  obtain ⟨hnonneg, hpacket⟩ := h.listening.packet
  unfold kBufferSize at hpacket
  have hresidual : (BitVec.ofInt 24 (d.inPacketSize - k)).toNat = (d.inPacketSize - k).toNat := by
    rw [BitVec.toNat_ofInt]
    omega
  have hlen : transferred (BitVec.ofInt 17 d.inPacketSize)
      (BitVec.ofInt 24 (d.inPacketSize - k)) = k := by
    rw [transferred_eq hnonneg (by omega) (by rw [hresidual]; omega), hresidual]
    omega
  have hstep := h.can_deliver hq hp hbytes (BitVec.ofInt 24 (d.inPacketSize - k))
  rw [hlen] at hstep
  exact hstep

/-- A list of reports in which nothing fails and nothing is too long. -/
def Receivable (kind : HidKind) (reports : List Report) : Prop :=
  ∀ r ∈ reports, ∃ bytes k, r = delivery bytes k ∧ bytes.length = kBufferSize ∧
    k ≤ reportSize kind

/-- Reports that can be received do not fail. -/
theorem Receivable.failures {kind : HidKind} {reports : List Report}
    (h : Receivable kind reports) : failures reports = 0 := by
  induction reports with
  | nil => rfl
  | cons r rest ih =>
      obtain ⟨bytes, k, rfl, -⟩ := h r List.mem_cons_self
      exact ih fun r' hr' => h r' (List.mem_cons_of_mem _ hr')

/-- Every list of receivable reports is the list of reports of some run that starts at a ready
device with a TRB outstanding: none is refused on the way. -/
theorem Ready.exists_run {s₀ : InputSystem} {p : Addr} {d : HidDriver} {i : Fin 31} {tr : Ring}
    (h₀ : s₀.Ready p d i tr) (hfresh : FreshDriver d) (hsome : s₀.outstanding ≠ [])
    (hp : hidBuffer p ≠ nullptr) {reports : List Report} (h : Receivable d.kind reports) :
    ∃ s, Run p i s₀ reports s := by
  induction reports using List.reverseRecOn with
  | nil => exact ⟨s₀, .start⟩
  | append_singleton reports r ih =>
      have hbefore : Receivable d.kind reports := fun r' hr' => h r' (List.mem_append_left _ hr')
      obtain ⟨s, hrun⟩ := ih hbefore
      have hcounted := counted_of_run h₀ hrun
      obtain ⟨tr', hready⟩ := hcounted.ready
      have houtstanding : s.outstanding ≠ [] := by
        intro hnil
        have hcount := hcounted.count
        rw [hnil, hbefore.failures] at hcount
        exact hsome (List.eq_nil_of_length_eq_zero hcount.symm)
      obtain ⟨bytes, k, rfl, hbytes, hk⟩ := h r (List.mem_append_right _ List.mem_cons_self)
      have hfits : (k : Int) ≤ (seeAll d reports).inPacketSize := by
        rw [(seeAll_frame d reports).2.1, hfresh.packet]
        exact_mod_cast hk
      obtain ⟨s', hstep⟩ := hready.can_receive houtstanding hp hbytes hfits
      exact ⟨s', hrun.step hstep⟩

/-! ## Keys that have been pressed -/

/-- The key codes of a keyboard report. -/
def keyBytes (report : List (BitVec 8)) : List (BitVec 8) := (report.drop 2).take 6

/-- The keys of a report that are not among those of the report before. -/
def pressedKeys (previous report : List (BitVec 8)) : List (BitVec 8) :=
  (keyBytes report).filter fun key => key ≠ 0 ∧ key ∉ keyBytes previous

/-- Each observer is told each of the keys, in this order. -/
def tellKeys (observers : Nat) (keys : List (BitVec 8)) : List Notification :=
  keys.flatMap fun key => List.replicate observers (.keyPush key)

/-- A full-length report. -/
def fullReport (kind : HidKind) (bytes : List (BitVec 8)) : Report :=
  .delivered bytes (reportSize kind)

/-- The last of these buffers, or the zeros before the first. -/
def lastReport (buffers : List (List (BitVec 8))) : List (BitVec 8) :=
  buffers.getLastD (List.replicate kBufferSize 0)

/-- After full-length keyboard reports `previous_buf_` holds the eight bytes of the last one,
and zeros behind them; before the first it is all zeros. -/
theorem previousBuf_fullReports {d : HidDriver} (hfresh : FreshDriver d)
    (buffers : List (List (BitVec 8))) (hsize : ∀ b ∈ buffers, b.length = kBufferSize) :
    (seeAll d (buffers.map (fullReport .keyboard))).previousBuf =
      (lastReport buffers).take 8 ++ List.replicate (kBufferSize - 8) 0 := by
  induction buffers using List.reverseRecOn with
  | nil =>
      change d.previousBuf = _
      rw [hfresh.previous]
      rfl
  | append_singleton buffers b ih =>
      have hbefore := ih fun b hb => hsize b (List.mem_append_left _ hb)
      have hlast : lastReport (buffers ++ [b]) = b := by
        unfold lastReport
        rw [List.getLastD_eq_getLast?, List.getLast?_concat]
        rfl
      have hdrop : ((lastReport buffers).take 8 ++
          List.replicate (kBufferSize - 8) (0 : BitVec 8)).drop 8 =
            List.replicate (kBufferSize - 8) 0 := by
        have hlength : ((lastReport buffers).take 8).length = 8 := by
          have hmem : (lastReport buffers).length = kBufferSize := by
            unfold lastReport
            rcases List.eq_nil_or_concat buffers with rfl | ⟨front, x, rfl⟩
            · exact List.length_replicate
            · rw [List.getLastD_eq_getLast?, List.concat_eq_append, List.getLast?_concat]
              exact hsize x (by simp)
          rw [List.length_take, hmem]
          decide
        exact List.drop_left' hlength
      rw [List.map_append, List.map_singleton, seeAll_append, hlast]
      change b.take 8 ++ (seeAll d _).previousBuf.drop 8 = _
      rw [hbefore, hdrop]

/-- Telling fewer keys is noticed, if somebody is told: the calls are the same only if every key
is kept or nobody observes. -/
theorem tellKeys_filter_iff (observers : Nat) (keys : List (BitVec 8)) (keep : BitVec 8 → Bool) :
    tellKeys observers (keys.filter keep) = tellKeys observers keys ↔
      observers = 0 ∨ ∀ key ∈ keys, keep key = true := by
  have hlength : ∀ l : List (BitVec 8), (tellKeys observers l).length = l.length * observers := by
    intro l
    unfold tellKeys
    rw [List.length_flatMap, List.map_congr_left fun key _ => List.length_replicate,
      List.map_const', List.sum_replicate, smul_eq_mul]
  constructor
  · intro h
    have hlen := congrArg List.length h
    rw [hlength, hlength] at hlen
    rcases Nat.eq_zero_or_pos observers with hzero | hpos
    · exact Or.inl hzero
    · exact Or.inr (List.length_filter_eq_length_iff.mp (Nat.eq_of_mul_eq_mul_right hpos hlen))
  · rintro (rfl | hall)
    · have hnil : ∀ l : List (BitVec 8), tellKeys 0 l = [] := fun l =>
        List.eq_nil_of_length_eq_zero (by rw [hlength, Nat.mul_zero])
      rw [hnil, hnil]
    · rw [List.filter_eq_self.mpr hall]

/-- What the observers of the driver at `p` have been told. -/
def told (s : InputSystem) (p : Addr) : List Notification :=
  match s.dev.drivers p with
  | none => []
  | some d => d.notified

/-- What a driver was told is recorded with it. -/
theorem told_eq {s : InputSystem} {p : Addr} {d : HidDriver} (h : s.dev.drivers p = some d) :
    s.told p = d.notified := by
  rw [told, h]

/-- The keyboard takes a key for held also where the first two bytes of the last
report have its code. -/
theorem keyboardKeys_eq {d : HidDriver} {last : List (BitVec 8)} {n : Nat}
    (hprevious : d.previousBuf = last.take 8 ++ List.replicate n 0) (report : List (BitVec 8)) :
    keyboardOnDataReceived d (keyBytes report) =
      tellKeys d.numObservers ((pressedKeys last report).filter fun key => key ∉ last.take 2) := by
  have hsplit : last.take 8 = last.take 2 ++ keyBytes last :=
    List.take_add (i := 2) (j := 6)
  have hsame : (keyBytes report).filter (fun key => key ≠ 0 ∧ key ∉ d.previousBuf) =
      (pressedKeys last report).filter fun key => key ∉ last.take 2 := by
    unfold pressedKeys
    rw [List.filter_filter]
    apply List.filter_congr
    intro key _
    have hmem : key ∈ d.previousBuf ↔
        (key ∈ last.take 2 ∨ key ∈ keyBytes last) ∨ n ≠ 0 ∧ key = 0 := by
      rw [hprevious, hsplit, List.mem_append, List.mem_append, List.mem_replicate]
    rw [← Bool.decide_and, decide_eq_decide, hmem]
    tauto
  unfold keyboardOnDataReceived tellKeys
  rw [hsame]

/-- What a keyboard tells about a report. -/
theorem keyboard_notified {d : HidDriver} (hkind : d.kind = .keyboard) (bytes : List (BitVec 8))
    (len : Int) :
    (afterReport d bytes len).notified =
      d.notified ++ keyboardOnDataReceived d (keyBytes bytes) := by
  unfold afterReport notificationsOf
  rw [hkind]
  rfl

section Edges

variable {p : Addr} {d : HidDriver} {i : Fin 31} {tr : Ring} {s₀ s₁ s₂ : InputSystem}

/-- What is told about a report after others: the keys in it that were not in the report before
it, in their order and to every observer. -/
theorem keyboard_told {before : List (List (BitVec 8))} {report : List (BitVec 8)}
    (h₀ : s₀.Ready p d i tr) (hfresh : FreshDriver d) (hkind : d.kind = .keyboard)
    (hrun : Run p i s₀ (before.map (fullReport .keyboard)) s₁)
    (hstep : Step p i s₁ (fullReport .keyboard report) s₂) :
    s₂.told p = s₁.told p ++ tellKeys d.numObservers
      ((pressedKeys (lastReport before) report).filter fun key =>
        key ∉ (lastReport before).take 2) := by
  have hsize : ∀ b ∈ before, b.length = kBufferSize := fun b hb =>
    hrun.bytes_length (List.mem_map_of_mem hb)
  obtain ⟨hkind', -, hobservers⟩ := seeAll_frame d (before.map (fullReport .keyboard))
  have hafter := h₀.driver (hrun.step hstep)
  rw [seeAll_append] at hafter
  rw [told_eq (h₀.driver hrun), told_eq hafter]
  have htold := keyboard_notified (hkind'.trans hkind) report (reportSize .keyboard)
  change (afterReport _ report (reportSize .keyboard)).notified = _
  rw [htold, keyboardKeys_eq (previousBuf_fullReports hfresh before hsize), hobservers]

/-- **Edges of the keyboard.** After full-length reports, what is told about the
next one are the keys pressed since the last one if none of them has the code of
one of the first two bytes of the last one, and otherwise a key is missed. -/
theorem keyboard_edges_iff {before : List (List (BitVec 8))} {report : List (BitVec 8)}
    (h₀ : s₀.Ready p d i tr) (hfresh : FreshDriver d) (hkind : d.kind = .keyboard)
    (hrun : Run p i s₀ (before.map (fullReport .keyboard)) s₁)
    (hstep : Step p i s₁ (fullReport .keyboard report) s₂) :
    s₂.told p = s₁.told p ++ tellKeys d.numObservers (pressedKeys (lastReport before) report) ↔
      d.numObservers = 0 ∨
        ∀ key ∈ pressedKeys (lastReport before) report, key ∉ (lastReport before).take 2 := by
  rw [keyboard_told h₀ hfresh hkind hrun hstep, List.append_cancel_left_eq, tellKeys_filter_iff]
  simp only [decide_eq_true_eq]

/-- The sample keyboard can send two reports one after the other, whatever bytes they have. -/
theorem sampleKeyboard_two {first second : List (BitVec 8)} (hfirst : first.length = kBufferSize)
    (hsecond : second.length = kBufferSize) :
    ∃ s₁ s₂, Run 0x3000 2 (sampleInput .keyboard) [fullReport .keyboard first] s₁ ∧
      Step 0x3000 2 s₁ (fullReport .keyboard second) s₂ := by
  have hready := sampleInput_ready .keyboard
  obtain ⟨s₁, hstep₁⟩ := hready.can_receive (List.cons_ne_nil _ _) (by decide) hfirst
    (k := 8) (by decide)
  have hcounted := counted_of_run hready (Run.start.step hstep₁)
  obtain ⟨tr', hready₁⟩ := hcounted.ready
  have hcount : s₁.outstanding.length + 0 = 1 := hcounted.count
  obtain ⟨s₂, hstep₂⟩ := hready₁.can_receive (List.ne_nil_of_length_pos (by omega)) (by decide)
    hsecond (k := 8) (by rw [(seeAll_frame _ _).2.1]; decide)
  exact ⟨s₁, s₂, Run.start.step hstep₁, hstep₂⟩

/-- Pressing A while the left shift key is held: the modifier byte is no key, so one key is
told. -/
theorem keyboard_edges_iff_shift : ∃ s₁ s₂,
    Run 0x3000 2 (sampleInput .keyboard) [fullReport .keyboard (padded [2] 0)] s₁ ∧
      Step 0x3000 2 s₁ (fullReport .keyboard (padded [2, 0, 4] 0)) s₂ ∧
      s₂.told 0x3000 = s₁.told 0x3000 ++ [.keyPush 4] := by
  obtain ⟨s₁, s₂, hrun, hstep⟩ := sampleKeyboard_two
    (padded_length (r := [2]) (by decide) 0) (padded_length (r := [2, 0, 4]) (by decide) 0)
  have hbefore : Run 0x3000 2 (sampleInput .keyboard)
      ([padded [2] 0].map (fullReport .keyboard)) s₁ := hrun
  have hedges := keyboard_edges_iff (sampleInput_ready .keyboard) (freshDriver_sample .keyboard)
    rfl hbefore hstep
  exact ⟨s₁, s₂, hrun, hstep, hedges.mpr (Or.inr (by decide))⟩

/-- **Pressing A while the left Alt key is held** is missed: the code of A is the
bit of left Alt in the modifier byte. -/
theorem held_alt_hides_key : ∃ s₁ s₂,
    Run 0x3000 2 (sampleInput .keyboard) [fullReport .keyboard (padded [4] 0)] s₁ ∧
      Step 0x3000 2 s₁ (fullReport .keyboard (padded [4, 0, 4] 0)) s₂ ∧
      pressedKeys (padded [4] 0) (padded [4, 0, 4] 0) = [4] ∧
      s₂.told 0x3000 = s₁.told 0x3000 := by
  obtain ⟨s₁, s₂, hrun, hstep⟩ := sampleKeyboard_two
    (padded_length (r := [4]) (by decide) 0) (padded_length (r := [4, 0, 4]) (by decide) 0)
  have hbefore : Run 0x3000 2 (sampleInput .keyboard)
      ([padded [4] 0].map (fullReport .keyboard)) s₁ := hrun
  have htold := keyboard_told (sampleInput_ready .keyboard) (freshDriver_sample .keyboard)
    rfl hbefore hstep
  refine ⟨s₁, s₂, hrun, hstep, by decide, htold.trans ?_⟩
  have hnone : (pressedKeys (lastReport [padded [4] 0]) (padded [4, 0, 4] 0)).filter
      (fun key => key ∉ (lastReport [padded [4] 0]).take 2) = [] := by decide
  rw [hnone]
  exact List.append_nil _

end Edges

/-! ## Bytes left over -/

/-- These bytes have been received, one list for each report, and the rest of
`buf_` is anything. -/
def Carries (received : List (List (BitVec 8))) (reports : List Report) : Prop :=
  List.Forall₂ (fun r report => ∃ bytes, report = delivery bytes r.length ∧
    bytes.take r.length = r) received reports

/-- A report of full length is told whatever is behind it: what is told depends on as many bytes
as the report has. -/
theorem notificationsOf_congr {d : HidDriver} {bytes bytes' : List (BitVec 8)}
    (h : d.numObservers = 0 ∨
      bytes.take (reportSize d.kind) = bytes'.take (reportSize d.kind)) :
    notificationsOf d bytes = notificationsOf d bytes' := by
  rcases h with hnone | hsame
  · have hnil : ∀ b, notificationsOf d b = [] := by
      intro b
      unfold notificationsOf keyboardOnDataReceived mouseOnDataReceived
      rw [hnone]
      cases d.kind with
      | keyboard => exact List.flatMap_eq_nil_iff.mpr fun _ _ => rfl
      | mouse => rfl
    rw [hnil, hnil]
  · unfold notificationsOf
    cases hkind : d.kind with
    | keyboard =>
        rw [hkind] at hsame
        have hkeys := congrArg (List.drop 2) hsame
        rw [List.drop_take, List.drop_take] at hkeys
        exact congrArg (keyboardOnDataReceived d) hkeys
    | mouse =>
        rw [hkind] at hsame
        have hat : ∀ j, j < 3 → bytes.getD j 0 = bytes'.getD j 0 := by
          intro j hj
          have hget := congrArg (fun l : List (BitVec 8) => l[j]?) hsame
          simp only [reportSize, List.getElem?_take, if_pos hj] at hget
          rw [List.getD_eq_getElem?_getD, List.getD_eq_getElem?_getD, hget]
        simp only [hat 1 (by decide), hat 2 (by decide)]

/-- Two runs with the same bytes received, all of them full-length reports, tell the same, by
induction over the reports. -/
theorem seeAll_congr {received : List (List (BitVec 8))} {reports reports' : List Report}
    {d : HidDriver} (hfull : d.numObservers = 0 ∨ ∀ r ∈ received, r.length = reportSize d.kind)
    (h : Carries received reports) (h' : Carries received reports') :
    seeAll d reports = seeAll d reports' := by
  induction received generalizing reports reports' d with
  | nil =>
      cases h
      cases h'
      rfl
  | cons r rest ih =>
      cases h with
      | cons hhead htail =>
          cases h' with
          | cons hhead' htail' =>
              obtain ⟨bytes, rfl, hbytes⟩ := hhead
              obtain ⟨bytes', rfl, hbytes'⟩ := hhead'
              have hnotified : notificationsOf d bytes = notificationsOf d bytes' := by
                apply notificationsOf_congr
                apply hfull.imp id
                intro hall
                rw [← hall r List.mem_cons_self, hbytes, hbytes']
              have hsame : afterReport d bytes r.length = afterReport d bytes' r.length := by
                unfold afterReport
                rw [hnotified, Int.toNat_natCast, hbytes, hbytes']
              change seeAll (afterReport d bytes r.length) _ =
                seeAll (afterReport d bytes' r.length) _
              rw [hsame]
              exact ih (hfull.imp id fun hall r' hr' => hall r' (List.mem_cons_of_mem _ hr'))
                htail htail'

/-- No report is longer than a keyboard report. -/
theorem reportSize_le (kind : HidKind) : reportSize kind ≤ 8 := by
  cases kind <;> decide

/-- Nothing but zeros is kept in `previous_buf_` behind the place of the longest report, since
no report copies more. -/
theorem previousBuf_tail {d : HidDriver} (hfresh : FreshDriver d) {reports : List Report}
    (h : Receivable d.kind reports) :
    ∀ x ∈ (seeAll d reports).previousBuf.drop 8, x = 0 := by
  induction reports using List.reverseRecOn with
  | nil =>
      intro x hx
      change x ∈ d.previousBuf.drop 8 at hx
      rw [hfresh.previous] at hx
      exact List.eq_of_mem_replicate (List.mem_of_mem_drop hx)
  | append_singleton reports r ih =>
      obtain ⟨bytes, k, rfl, hbytes, hk⟩ := h r (List.mem_append_right _ List.mem_cons_self)
      have hkept : k ≤ 8 := hk.trans (reportSize_le d.kind)
      have hlength : (bytes.take k).length = k := by
        rw [List.length_take, hbytes]
        unfold kBufferSize
        omega
      have htail : (bytes.take k ++ (seeAll d reports).previousBuf.drop k).drop 8 =
          (seeAll d reports).previousBuf.drop 8 := by
        rw [List.drop_append, hlength, List.drop_eq_nil_of_le (by omega), List.nil_append,
          List.drop_drop, Nat.add_sub_cancel' hkept]
      rw [seeAll_append]
      change ∀ x ∈ (bytes.take (k : Int).toNat ++ (seeAll d reports).previousBuf.drop _).drop 8, _
      rw [Int.toNat_natCast, htail]
      exact ih fun r' hr' => h r' (List.mem_append_left _ hr')

/-- What has been told before does not matter for what is told later: the later calls come
behind it, whatever it is. -/
theorem seeAll_notified (reports : List Report) (d : HidDriver) :
    ∃ later, ∀ before,
      (seeAll { d with notified := before } reports).notified = before ++ later := by
  induction reports generalizing d with
  | nil => exact ⟨[], fun before => (List.append_nil before).symm⟩
  | cons r rest ih =>
      cases r with
      | failed => exact ih d
      | delivered bytes len =>
          obtain ⟨later, hlater⟩ := ih (afterReport d bytes len)
          refine ⟨notificationsOf d bytes ++ later, fun before => ?_⟩
          rw [← List.append_assoc]
          exact hlater (before ++ notificationsOf d bytes)

/-- Fifteen key codes leave one that is neither among them nor zero, since there are 255 others.
-/
theorem exists_fresh {l : List (BitVec 8)} (hl : l.length ≤ 15) : ∃ v, v ≠ 0 ∧ v ∉ l := by
  by_contra hnone
  have hall : ∀ v : BitVec 8, v ≠ 0 → v ∈ l := by
    intro v hv
    by_contra hmem
    exact hnone ⟨v, hv, hmem⟩
  have hnodup : ((List.range' 1 16).map (BitVec.ofNat 8)).Nodup := by decide
  have hsubset : (List.range' 1 16).map (BitVec.ofNat 8) ⊆ l := by
    intro v hv
    apply hall v
    intro hzero
    rw [hzero] at hv
    exact absurd hv (by decide)
  have hle := (List.subperm_of_subset hnodup hsubset).length_le
  rw [List.length_map, List.length_range'] at hle
  omega

/-- What is behind a short report is told: a fresh value there gives other notifications than
zeros do, for a mouse as for a keyboard. -/
theorem notificationsOf_padded_ne {d : HidDriver} (hsome : d.numObservers ≠ 0)
    {r : List (BitVec 8)} (hshort : r.length < reportSize d.kind) {v : BitVec 8} (hv : v ≠ 0)
    (hnew : v ∉ r) (hprevious : v ∉ d.previousBuf) :
    notificationsOf d (padded r v) ≠ notificationsOf d (padded r 0) := by
  obtain ⟨n, hn⟩ := Nat.exists_eq_succ_of_ne_zero hsome
  unfold notificationsOf
  cases hkind : d.kind with
  | keyboard =>
      rw [hkind] at hshort
      have hshort : r.length < 8 := hshort
      have hlength := padded_length hshort.le v
      have hseven : v ∈ ((padded r v).drop 2).take 6 := by
        apply List.mem_iff_getElem?.mpr
        refine ⟨5, ?_⟩
        have hget := padded_getD (Nat.le_of_lt_succ hshort) (by decide : 7 < kBufferSize) v
        rw [List.getD_eq_getElem?_getD, List.getElem?_eq_getElem (by rw [hlength]; decide)] at hget
        rw [List.getElem?_take_of_lt (by decide), List.getElem?_drop,
          List.getElem?_eq_getElem (by rw [hlength]; decide)]
        exact congrArg some hget
      have htold : .keyPush v ∈ keyboardOnDataReceived d (((padded r v).drop 2).take 6) := by
        apply List.mem_flatMap.mpr
        refine ⟨v, List.mem_filter.mpr ⟨hseven, decide_eq_true ⟨hv, hprevious⟩⟩, ?_⟩
        exact List.mem_replicate.mpr ⟨hsome, rfl⟩
      intro hsame
      have htold' := htold
      simp only at hsame
      rw [hsame] at htold'
      obtain ⟨key, hkey, hpush⟩ := List.mem_flatMap.mp htold'
      obtain rfl := Notification.keyPush.inj (List.eq_of_mem_replicate hpush)
      have hmem := List.mem_of_mem_drop (List.mem_of_mem_take (List.mem_filter.mp hkey).1)
      exact (mem_padded hmem).elim hnew hv
  | mouse =>
      rw [hkind] at hshort
      have hshort : r.length < 3 := hshort
      intro hsame
      simp only [mouseOnDataReceived, hn, List.replicate_succ, List.cons.injEq,
        Notification.mouseMove.injEq] at hsame
      have htwo := hsame.1.2
      rw [padded_getD (Nat.le_of_lt_succ hshort) (by decide),
        padded_getD (Nat.le_of_lt_succ hshort) (by decide)] at htwo
      exact hv htwo

/-- These bytes, with zeros behind each report. -/
def fill (received : List (List (BitVec 8))) : List Report :=
  received.map fun r => delivery (padded r 0) r.length

/-- The report after `before` has `v` behind it instead. -/
def fillWith (before after : List (List (BitVec 8))) (r : List (BitVec 8)) (v : BitVec 8) :
    List Report :=
  fill before ++ delivery (padded r v) r.length :: fill after

/-- The report is the beginning of the buffer. -/
theorem padded_take (r : List (BitVec 8)) (v : BitVec 8) : (padded r v).take r.length = r :=
  List.take_left' rfl

/-- Buffers that are filled up with zeros carry the reports. -/
theorem carries_fill (received : List (List (BitVec 8))) : Carries received (fill received) := by
  apply List.forall₂_map_right_iff.mpr
  apply List.forall₂_same.mpr
  intro r _
  exact ⟨padded r 0, rfl, padded_take r 0⟩

/-- Buffers of which one is filled in another way behind its report carry the same bytes as
before. -/
theorem carries_fillWith (before after : List (List (BitVec 8))) (r : List (BitVec 8))
    (v : BitVec 8) : Carries (before ++ r :: after) (fillWith before after r v) := by
  apply List.rel_append (carries_fill before)
  exact .cons ⟨padded r v, rfl, padded_take r v⟩ (carries_fill after)

/-- Reports of at most this length can be received, whatever the buffer holds behind them. -/
theorem receivable_fillWith {kind : HidKind} {before after : List (List (BitVec 8))}
    {r : List (BitVec 8)} (h : ∀ r' ∈ before ++ r :: after, r'.length ≤ reportSize kind)
    (v : BitVec 8) : Receivable kind (fillWith before after r v) := by
  have hone : ∀ r' ∈ before ++ r :: after, ∀ w, ∃ bytes k,
      delivery (padded r' w) r'.length = delivery bytes k ∧ bytes.length = kBufferSize ∧
        k ≤ reportSize kind := fun r' hr' w =>
    ⟨_, _, rfl, padded_length ((h r' hr').trans (reportSize_le kind)) w, h r' hr'⟩
  intro report hreport
  rcases List.mem_append.mp hreport with hbefore | hrest
  · obtain ⟨r', hr', rfl⟩ := List.mem_map.mp hbefore
    exact hone r' (List.mem_append_left _ hr') 0
  · rcases List.mem_cons.mp hrest with rfl | hafter
    · exact hone r (List.mem_append_right _ List.mem_cons_self) v
    · obtain ⟨r', hr', rfl⟩ := List.mem_map.mp hafter
      exact hone r' (List.mem_append_right _ (List.mem_cons_of_mem _ hr')) 0

/-- What is told about a report is told behind what the reports before it have given, and in
front of something that does not depend on the filling. -/
theorem seeAll_fillWith (d : HidDriver) (before after : List (List (BitVec 8)))
    (r : List (BitVec 8)) : ∃ later, ∀ v, (seeAll d (fillWith before after r v)).notified =
      (seeAll d (fill before)).notified ++
        notificationsOf (seeAll d (fill before)) (padded r v) ++ later := by
  obtain ⟨later, hlater⟩ :=
    seeAll_notified (fill after) (afterReport (seeAll d (fill before)) (padded r 0) r.length)
  refine ⟨later, fun v => ?_⟩
  have hsplit : seeAll d (fillWith before after r v) =
      seeAll (afterReport (seeAll d (fill before)) (padded r v) r.length) (fill after) := by
    rw [seeAll, fillWith, List.foldl_append]
    rfl
  have hafter : afterReport (seeAll d (fill before)) (padded r v) r.length =
      { afterReport (seeAll d (fill before)) (padded r 0) r.length with
        notified := (seeAll d (fill before)).notified ++
          notificationsOf (seeAll d (fill before)) (padded r v) } := by
    unfold afterReport
    simp only [Int.toNat_natCast, padded_take]
  rw [hsplit, hafter, hlater]

section Leftovers

variable {p : Addr} {d : HidDriver} {i : Fin 31} {tr : Ring} {s₀ s : InputSystem}

/-- Where no TRB is outstanding nothing is reported, so every run ends where it has started. -/
theorem Run.nil_of_idle (h₀ : s₀.Ready p d i tr) (hidle : s₀.outstanding = [])
    {reports : List Report} (hrun : Run p i s₀ reports s) : s = s₀ := by
  cases hrun with
  | start => rfl
  | @step reports r s s' hrun hstep =>
      exfalso
      have hcount := (counted_of_run h₀ hrun).count
      rw [hidle, List.length_nil] at hcount
      have hnil := List.eq_nil_of_length_eq_zero (Nat.eq_zero_of_add_eq_zero_right hcount)
      cases hstep with
      | failed _ ho => exact absurd (hnil ▸ ho) List.not_mem_nil
      | delivered _ _ ho => exact absurd (hnil ▸ ho) List.not_mem_nil

/-- **Bytes left over.** All runs with these bytes received tell the same if all of them are
full-length reports, and only then, as long as somebody observes and a TRB is outstanding to
begin with. -/
theorem leftovers_untold_iff {received : List (List (BitVec 8))} (h₀ : s₀.Ready p d i tr)
    (hfresh : FreshDriver d) (hp : hidBuffer p ≠ nullptr)
    (hsizes : ∀ r ∈ received, r.length ≤ reportSize d.kind) :
    (∀ reports reports' s s', Carries received reports → Carries received reports' →
        Run p i s₀ reports s → Run p i s₀ reports' s' → s.told p = s'.told p) ↔
      d.numObservers = 0 ∨ s₀.outstanding = [] ∨ ∀ r ∈ received, r.length = reportSize d.kind := by
  constructor
  · intro hsame
    by_contra hnot
    obtain ⟨hobservers, hnot⟩ := not_or.mp hnot
    obtain ⟨hsome, hnot⟩ := not_or.mp hnot
    obtain ⟨r, hr, hne⟩ := not_forall₂.mp hnot
    have hshort := lt_of_le_of_ne (hsizes r hr) hne
    obtain ⟨before, after, rfl⟩ := List.append_of_mem hr
    obtain ⟨hkind, -, hn⟩ := seeAll_frame d (fill before)
    have hbefore : Receivable d.kind (fill before) := fun report hreport =>
      receivable_fillWith hsizes 0 report (List.mem_append_left _ hreport)
    have hlength : ((seeAll d (fill before)).previousBuf.take 8 ++ r).length ≤ 15 := by
      have hlt := hshort.trans_le (reportSize_le d.kind)
      rw [List.length_append, List.length_take]
      omega
    obtain ⟨v, hv, hnew⟩ := exists_fresh hlength
    obtain ⟨hhead, hnew⟩ := not_or.mp (mt List.mem_append.mpr hnew)
    have hprevious : v ∉ (seeAll d (fill before)).previousBuf := by
      intro hmem
      rw [← List.take_append_drop 8 (seeAll d (fill before)).previousBuf] at hmem
      rcases List.mem_append.mp hmem with htake | hdrop
      · exact hhead htake
      · exact hv (previousBuf_tail hfresh hbefore v hdrop)
    -- the two runs differ behind this one report
    obtain ⟨s, hrun⟩ := h₀.exists_run hfresh hsome hp (receivable_fillWith hsizes v)
    obtain ⟨s', hrun'⟩ := h₀.exists_run hfresh hsome hp (receivable_fillWith hsizes 0)
    have htold := hsame _ _ s s' (carries_fillWith before after r v)
      (carries_fillWith before after r 0) hrun hrun'
    obtain ⟨later, hlater⟩ := seeAll_fillWith d before after r
    rw [told_eq (h₀.driver hrun), told_eq (h₀.driver hrun'), hlater, hlater,
      List.append_cancel_right_eq, List.append_cancel_left_eq] at htold
    refine notificationsOf_padded_ne ?_ ?_ hv hnew hprevious htold
    · rw [hn]
      exact hobservers
    · rw [hkind]
      exact hshort
  · intro hwhen reports reports' s s' hcarries hcarries' hrun hrun'
    rcases hwhen with hnone | hidle | hfull
    · rw [told_eq (h₀.driver hrun), told_eq (h₀.driver hrun'),
        seeAll_congr (Or.inl hnone) hcarries hcarries']
    · rw [hrun.nil_of_idle h₀ hidle, hrun'.nil_of_idle h₀ hidle]
    · rw [told_eq (h₀.driver hrun), told_eq (h₀.driver hrun'),
        seeAll_congr (Or.inr hfull) hcarries hcarries']

/-- A full-length report of the sample mouse is told in the same way whatever is left in the
buffer behind it. -/
theorem leftovers_untold_iff_mouse : ∃ s s',
    Run 0x3000 2 (sampleInput .mouse) [delivery (padded [0, 5, 5] 0) 3] s ∧
      Run 0x3000 2 (sampleInput .mouse) [delivery (padded [0, 5, 5] 9) 3] s' ∧
      s.told 0x3000 = s'.told 0x3000 := by
  have hready := sampleInput_ready .mouse
  have hcarries : ∀ v, Carries [[0, 5, 5]] [delivery (padded [0, 5, 5] v) 3] :=
    fun v => .cons ⟨_, rfl, rfl⟩ .nil
  have hreceivable : ∀ v, Receivable .mouse [delivery (padded [0, 5, 5] v) 3] := by
    intro v r hr
    rw [List.mem_singleton.mp hr]
    exact ⟨_, _, rfl, padded_length (by decide) v, by decide⟩
  obtain ⟨s, hrun⟩ := hready.exists_run (freshDriver_sample .mouse) (List.cons_ne_nil _ _)
    (by decide) (hreceivable 0)
  obtain ⟨s', hrun'⟩ := hready.exists_run (freshDriver_sample .mouse) (List.cons_ne_nil _ _)
    (by decide) (hreceivable 9)
  have hfull : ∀ r ∈ [([0, 5, 5] : List (BitVec 8))],
      r.length = reportSize (sampleDriver .mouse).kind := by decide
  have hsame := (leftovers_untold_iff hready (freshDriver_sample .mouse) (by decide)
    fun r hr => Nat.le_of_eq (hfull r hr)).mpr (Or.inr (Or.inr hfull))
  exact ⟨s, s', hrun, hrun', hsame _ _ s s' (hcarries 0) (hcarries 9) hrun hrun'⟩

/-- **An empty report repeats a movement** that is still in `buf_`: two runs that receive the
same bytes tell different movements. -/
theorem empty_report_moves : ∃ reports reports' s s',
    Carries [[0, 5, 5], []] reports ∧ Carries [[0, 5, 5], []] reports' ∧
      Run 0x3000 2 (sampleInput .mouse) reports s ∧
      Run 0x3000 2 (sampleInput .mouse) reports' s' ∧
      s.told 0x3000 = [.mouseMove 5 5, .mouseMove 5 5] ∧
      s'.told 0x3000 = [.mouseMove 5 5, .mouseMove 0 0] := by
  have hready := sampleInput_ready .mouse
  have hfull : ∃ bytes, delivery (padded [0, 5, 5] 0) 3 = delivery bytes 3 ∧
      bytes.take 3 = [0, 5, 5] := ⟨_, rfl, rfl⟩
  have hcarries : ∀ bytes, Carries [[0, 5, 5], []]
      [delivery (padded [0, 5, 5] 0) 3, delivery bytes 0] := fun bytes =>
    .cons hfull (.cons ⟨bytes, rfl, rfl⟩ .nil)
  have hreceivable : ∀ bytes, bytes.length = kBufferSize →
      Receivable .mouse [delivery (padded [0, 5, 5] 0) 3, delivery bytes 0] := by
    intro bytes hbytes r hr
    rcases List.mem_cons.mp hr with rfl | hr
    · exact ⟨_, _, rfl, padded_length (by decide) 0, by decide⟩
    · rw [List.mem_singleton.mp hr]
      exact ⟨_, _, rfl, hbytes, by decide⟩
  obtain ⟨s, hrun⟩ := hready.exists_run (freshDriver_sample .mouse) (List.cons_ne_nil _ _)
    (by decide) (hreceivable (padded [0, 5, 5] 0) (padded_length (by decide) 0))
  obtain ⟨s', hrun'⟩ := hready.exists_run (freshDriver_sample .mouse) (List.cons_ne_nil _ _)
    (by decide) (hreceivable (padded [] 0) (padded_length (by decide) 0))
  refine ⟨_, _, s, s', hcarries _, hcarries _, hrun, hrun', ?_, ?_⟩
  · rw [told_eq (hready.driver hrun)]
    rfl
  · rw [told_eq (hready.driver hrun')]
    rfl

end Leftovers

end InputSystem

end Mikanos.Xhci
