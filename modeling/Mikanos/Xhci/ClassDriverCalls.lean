import Mikanos.Xhci.EventWaiters
import Mikanos.Xhci.InitializationPhases

/-!
# Calls of the class drivers

`OnEndpointsConfigured` goes through `class_drivers_`, which is indexed by endpoint number, and
calls the class driver of every entry, as often as it has entries (`endpointsConfiguredCalls_eq`).
Each call issues SET_PROTOCOL.  The driver is prepared for one completion: it takes the driver to
phase 2, where every other is answered with `kNotImplemented` (`driverOnControlCompleted_again`).

`ConfiguresOnce` says that every class driver is called once.  When there is only one class
driver, this is so if and only if it has at most one entry.
-/

namespace Mikanos.Xhci

open Mikanos.Usb

namespace Device

/-! ## The calls of one round -/

/-- The class drivers that the loop of `OnEndpointsConfigured` calls, from index `i` on. -/
def endpointsConfiguredCalls (dev : Device) : Nat → Nat → List Addr
  | 0, _ => []
  | left + 1, i =>
      if h : i < 16 then
        let classDriver := dev.classDrivers ⟨i, h⟩
        if classDriver ≠ nullptr then
          match dev.driverOnEndpointsConfigured classDriver with
          | .ok (.kSuccess, dev) => classDriver :: dev.endpointsConfiguredCalls left (i + 1)
          | _ => [classDriver]
        else dev.endpointsConfiguredCalls left (i + 1)
      else []

/-- There is a control ring to push on, and a driver behind every class driver pointer. -/
structure CanConfigure (dev : Device) : Prop where
  ring : ∃ tr history, dev.transferRings 0 = some tr ∧ tr.Remembers 32 history
  present : DriversPresent dev

/-- `OnEndpointsConfigured` of a driver is a request. -/
theorem driverOnEndpointsConfigured_eq {dev : Device} {p : Addr} {d : HidDriver}
    (hd : dev.drivers p = some d) : dev.driverOnEndpointsConfigured p =
      (dev.setDriver p { d with initializePhase := 1 }).control false
        (setProtocolData d.interfaceIndex) nullptr 0 p := by
  have hat := driverAt_of_drivers hd
  rw [control, if_neg (by decide), driverOnEndpointsConfigured, hat]
  rfl

/-- A call of `OnEndpointsConfigured` on a class driver succeeds and leaves everything ready for
the next: the ring is there and the entries are those of before. -/
theorem CanConfigure.call {dev : Device} (h : CanConfigure dev) {p : Addr} {d : HidDriver}
    (hd : dev.drivers p = some d) : ∃ dev', dev.driverOnEndpointsConfigured p =
      .ok (.kSuccess, dev') ∧ CanConfigure dev' ∧ dev'.classDrivers = dev.classDrivers := by
  obtain ⟨tr, history, hring, hremembers⟩ := h.ring
  obtain ⟨type, extra, tr', hpush, -, hremembers', -⟩ :=
    pushTransfer_remembers hremembers false (setProtocolData d.interfaceIndex) nullptr 0
  let dev₁ := dev.setDriver p { d with initializePhase := 1 }
  have hring₁ : dev₁.transferRings 0 = some tr := hring
  have hcall := control_eq hring₁ false (setProtocolData d.interfaceIndex) nullptr 0 p hpush
  obtain ⟨eventWaiters, hadd⟩ := addWaiter_fields dev₁ (setProtocolData d.interfaceIndex) p
  rw [hadd] at hcall
  refine ⟨_, (driverOnEndpointsConfigured_eq hd).trans hcall, ⟨?_, ?_⟩, rfl⟩
  · exact ⟨tr', _, noteTransfer_ring _ _ _ _, hremembers'⟩
  · intro k hk
    obtain ⟨d₀, hd₀⟩ := h.present k hk
    rcases eq_or_ne (dev.classDrivers k) p with heq | hne
    · exact ⟨{ d with initializePhase := 1 }, heq ▸ Function.update_self _ _ _⟩
    · exact ⟨d₀, (Function.update_of_ne hne _ _).trans hd₀⟩

/-- **The calls of `OnEndpointsConfigured`** are the entries of `class_drivers_`, each as often
as it stands there. -/
theorem endpointsConfiguredCalls_eq (left : Nat) : ∀ {i : Nat} {dev : Device},
    i + left = 16 → CanConfigure dev → dev.endpointsConfiguredCalls left i =
      (((List.finRange 16).drop i).map dev.classDrivers).filter (· ≠ nullptr) := by
  induction left with
  | zero =>
      intro i dev hleft _
      obtain rfl : i = 16 := hleft
      rfl
  | succ left ih =>
      intro i dev hleft h
      have hi : i < 16 := by omega
      have hlength : i < (List.finRange 16).length := by
        rw [List.length_finRange]
        exact hi
      have hdrop : (List.finRange 16).drop i = ⟨i, hi⟩ :: (List.finRange 16).drop (i + 1) := by
        rw [List.drop_eq_getElem_cons hlength, List.getElem_finRange]
        rfl
      rw [hdrop, List.map_cons, endpointsConfiguredCalls, dif_pos hi]
      dsimp only
      by_cases hnull : dev.classDrivers ⟨i, hi⟩ = nullptr
      · rw [if_neg (not_not.mpr hnull), List.filter_cons_of_neg (by simpa using hnull)]
        exact ih (by omega) h
      · obtain ⟨d, hd⟩ := h.present ⟨i, hi⟩ hnull
        obtain ⟨dev', hcall, h', hclass⟩ := h.call hd
        rw [if_pos hnull, List.filter_cons_of_pos (by simpa using hnull), hcall]
        dsimp only
        rw [ih (by omega) h', hclass]

/-- The pointer is that of a class driver of the device. -/
def IsClassDriver (dev : Device) (p : Addr) : Prop := p ≠ nullptr ∧ ∃ k, dev.classDrivers k = p

/-- **A class driver is called once** if and only if it has one entry of `class_drivers_`: the
loop makes a call for every entry that is not null. -/
theorem count_calls_eq_one_iff {dev : Device} (h : CanConfigure dev) {p : Addr}
    (hp : dev.IsClassDriver p) : (dev.endpointsConfiguredCalls 16 0).count p = 1 ↔
      ∀ j k, dev.classDrivers j = p → dev.classDrivers k = p → j = k := by
  have hcount : (dev.endpointsConfiguredCalls 16 0).count p =
      ((List.finRange 16).filter fun k => dev.classDrivers k = p).length := by
    rw [endpointsConfiguredCalls_eq 16 (Nat.zero_add 16) h, List.drop_zero,
      List.count_filter (by simpa using hp.1), List.count_eq_countP, List.countP_map,
      List.countP_eq_length_filter]
    rfl
  have hnodup := (List.nodup_finRange 16).filter fun k => decide (dev.classDrivers k = p)
  have hmem : ∀ k, k ∈ (List.finRange 16).filter (fun k => dev.classDrivers k = p) ↔
      dev.classDrivers k = p := by
    intro k
    rw [List.mem_filter, decide_eq_true_iff]
    exact ⟨fun hk => hk.2, fun hk => ⟨List.mem_finRange k, hk⟩⟩
  rw [hcount]
  generalize (List.finRange 16).filter (fun k => dev.classDrivers k = p) = entries at hnodup hmem
  constructor
  · intro hone j k hj hk
    obtain ⟨i, rfl⟩ := List.length_eq_one_iff.mp hone
    exact (List.mem_singleton.mp ((hmem j).mpr hj)).trans
      (List.mem_singleton.mp ((hmem k).mpr hk)).symm
  · intro hsame
    obtain ⟨k, hk⟩ := hp.2
    have hsubset : entries ⊆ [k] := fun j hj =>
      List.mem_singleton.mpr (hsame j k ((hmem j).mp hj) hk)
    have hle := (hnodup.subperm hsubset).length_le
    have hpos := List.length_pos_of_mem ((hmem k).mpr hk)
    rw [List.length_singleton] at hle
    omega

/-! ## One request under way -/

/-- The transfer `o`, and no other, is under way. -/
def UnderWay (dev : Device) (o : Transfer) : Prop :=
  ∃ s tr history, ControlSystem.Inv s tr history ∧ s.dev = dev ∧ s.outstanding = [o]

/-- Changes that affect neither the control ring nor `setup_stage_map_`. -/
theorem idle_of_eq {dev dev' : Device} (h : RequestSystem.Idle dev)
    (hring : dev'.transferRings 0 = dev.transferRings 0)
    (hmap : dev'.setupStageMap = dev.setupStageMap) : RequestSystem.Idle dev' := by
  obtain ⟨s, tr, history, hinv, rfl, hnone⟩ := h
  obtain ⟨tr', history', hinv'⟩ := hinv.step (.other hring hmap)
  exact ⟨_, tr', history', hinv', rfl, hnone⟩

/-- A request of an idle device is the only one that is under way once the call has returned. -/
theorem underWay_of_control {dev dev' : Device} {dirIn : Bool} {setupData : SetupData}
    {buf : Addr} {len : Int} {issuer : Addr} {err : Error} (h : RequestSystem.Idle dev)
    (h0 : 0 ≤ len) (hlen : len < 2 ^ 17)
    (hcall : dev.control dirIn setupData buf len issuer = .ok (err, dev')) :
    ∃ ioc first, UnderWay dev' ⟨setupData, buf, len, ioc, first⟩ := by
  obtain ⟨s, tr, history, hinv, rfl, hnone⟩ := h
  obtain ⟨pushed, -, hpush, -⟩ := hinv.can_request dirIn setupData buf len issuer
  have hwindow : ∀ o ∈ s.outstanding, s.pushes + trbCount buf ≤ o.first + 31 := by
    rw [hnone]
    exact fun o ho => absurd ho List.not_mem_nil
  obtain ⟨tr', history', hinv'⟩ := hinv.request h0 hlen hwindow hpush hcall
  rw [hnone, List.nil_append] at hinv'
  exact ⟨pushed.1, s.pushes, _, tr', history', hinv', rfl, rfl⟩

/-- The map of Setup Stage TRBs has one entry, under the TRB that reports the transfer, and it
leads to the request. -/
theorem UnderWay.entries {dev : Device} {o : Transfer} (h : UnderWay dev o) :
    ∃ setupTrb, dev.setupStageMap.entries = [(o.ioc, setupTrb)] ∧
      ∀ m, setupDataOf (trbAt m dev setupTrb) = o.setupData := by
  obtain ⟨s, tr, history, hinv, rfl, hone⟩ := h
  have ho : o ∈ s.outstanding := by rw [hone]; exact List.mem_singleton_self o
  have hon := hinv.onRing o ho
  have hwindow := hon.window
  obtain ⟨type, hsetup⟩ := hon.setup
  obtain ⟨hslot, hmem⟩ := hinv.slot hsetup (by omega)
  have hentries := hinv.entries
  rw [hone] at hentries
  refine ⟨tr.slotAddr (o.first % 31), List.perm_singleton.mp hentries, fun m => ?_⟩
  rw [trbAt_control_ring m s.dev hinv.ring hslot, ← setupDataOf_stamp _ false, hmem,
    setupDataOf_stamp, setupDataOf_makeSetupStageTRB]

/-- The completion of a transfer that is under way is decoded to the request it was issued for,
with the bytes that have arrived. -/
theorem UnderWay.decode {dev : Device} {o : Transfer} (h : UnderWay dev o) (m : Dma) {trb : Trb}
    (hioc : trb.parameter = o.ioc) (hcode : transferFailed trb = false)
    (hres : ((eventTransferLength trb).toNat : Int) ≤ o.len) :
    ∃ len, decodeTransferEvent m dev trb = (.control o.setupData o.buf len,
      { dev with setupStageMap := dev.setupStageMap.delete o.ioc }) := by
  obtain ⟨s, tr, history, hinv, rfl, hone⟩ := h
  have ho : o ∈ s.outstanding := by rw [hone]; exact List.mem_singleton_self o
  exact ⟨_, hinv.decode m ho hioc (transferFailed_eq_false.mp hcode) hres⟩

/-- A control completion takes the entry under its TRB out of the map, so there has been one,
and changes nothing else in the device. -/
theorem decodeTransferEvent_control_cases {m : Dma} {dev dev' : Device} {trb : Trb}
    {setupData : SetupData} {buf : Addr} {len : Int}
    (h : decodeTransferEvent m dev trb = (.control setupData buf len, dev')) :
    (∃ setupTrb, dev.setupStageMap.get trb.parameter = some setupTrb) ∧
      dev' = { dev with setupStageMap := dev.setupStageMap.delete trb.parameter } := by
  unfold decodeTransferEvent at h
  split at h
  · cases h
  · dsimp only at h
    split at h
    · cases h
    · split at h
      · cases h
      · rename_i setupTrb hget
        obtain ⟨-, hdev'⟩ := Prod.mk.inj h
        exact ⟨⟨setupTrb, hget⟩, hdev'.symm⟩

/-- After the completion of the only request the device is idle: the map is empty again. -/
theorem UnderWay.idle {dev dev' : Device} {o : Transfer} (h : UnderWay dev o) {m : Dma} {trb : Trb}
    {setupData : SetupData} {buf : Addr} {len : Int}
    (hdecode : decodeTransferEvent m dev trb = (.control setupData buf len, dev')) :
    RequestSystem.Idle dev' := by
  obtain ⟨⟨setupTrb, hget⟩, rfl⟩ := decodeTransferEvent_control_cases hdecode
  obtain ⟨entry, hentries, -⟩ := h.entries
  obtain ⟨s, tr, history, hinv, rfl, hone⟩ := h
  have ho : o ∈ s.outstanding := by rw [hone]; exact List.mem_singleton_self o
  have hentry := ArrayMap.mem_entries_of_get hget
  rw [hentries] at hentry
  rw [(Prod.mk.inj (List.mem_singleton.mp hentry)).1]
  refine ⟨_, tr, history, hinv.settle ho, rfl, ?_⟩
  rw [hone]
  exact List.erase_cons_head _ _

/-- An idle device gets no control completion: whatever TRB an event names, it is not in the
map. -/
theorem idle_no_completion {dev dev' : Device} (h : RequestSystem.Idle dev) {m : Dma} {trb : Trb}
    {setupData : SetupData} {buf : Addr} {len : Int} :
    decodeTransferEvent m dev trb ≠ (.control setupData buf len, dev') := by
  intro hdecode
  obtain ⟨⟨setupTrb, hget⟩, -⟩ := decodeTransferEvent_control_cases hdecode
  obtain ⟨s, tr, history, hinv, rfl, hnone⟩ := h
  have hentries := hinv.entries
  rw [hnone] at hentries
  have hentry := ArrayMap.mem_entries_of_get hget
  rw [List.perm_nil.mp hentries] at hentry
  cases hentry

/-! ## Every class driver once -/

/-- The requests under way, as `OnTransferEventReceived` reads them back. -/
def requestsUnderWay (m : Dma) (dev : Device) : List SetupData :=
  dev.setupStageMap.entries.map fun e => setupDataOf (trbAt m dev e.2)

/-- The events report that the transfers under way are complete, in any order. -/
structure Reports (dev : Device) (events : List Trb) : Prop where
  perm : (events.map Trb.parameter).Perm (dev.setupStageMap.entries.map Prod.fst)
  complete : ∀ trb ∈ events, transferFailed trb = false ∧ eventTransferLength trb = 0

/-- What `OnTransferEventReceived` answers to one event after another, as long as it returns. -/
def answersTo (m : Dma) (obs : DefaultObservers) (dev : Device) (pool : Usb.Pool) :
    List Trb → List Error
  | [] => []
  | trb :: rest =>
      match onTransferEventReceived m obs dev pool trb with
      | .ok (err, dev, pool) => err :: answersTo m obs dev pool rest
      | .error _ => []

/-- `OnEndpointsConfigured` has taken `dev` to `dev'`, and every class driver was called once:
it has one SET_PROTOCOL request under way and waits for it once, and no completion is answered
with `kNotImplemented`. -/
structure ConfiguredOnce (dev dev' : Device) : Prop where
  called : ∀ p, dev.IsClassDriver p → (dev.endpointsConfiguredCalls 16 0).count p = 1
  requested : ∀ p d, dev.IsClassDriver p → dev.drivers p = some d →
    ∀ m, (dev'.requestsUnderWay m).count (setProtocolData d.interfaceIndex) = 1
  waiting : ∀ p d, dev.IsClassDriver p → dev.drivers p = some d →
    dev'.eventWaiters.entries.count (setProtocolData d.interfaceIndex, p) = 1
  answered : ∀ m obs pool events, dev'.Reports events →
    .kNotImplemented ∉ answersTo m obs dev' pool events

/-- `OnEndpointsConfigured` configures every class driver once. -/
def ConfiguresOnce (dev : Device) : Prop :=
  ∃ dev', dev.onEndpointsConfigured = .ok (.kSuccess, dev') ∧ ConfiguredOnce dev dev'

/-- `OnEndpointsConfigured` is next, and there is no class driver but the one at `p`. -/
structure Ready (dev : Device) (p : Addr) : Prop where
  idle : RequestSystem.Idle dev
  isInitialized : dev.isInitialized = true
  waiters : dev.eventWaiters.entries = []
  nonnull : p ≠ nullptr
  present : ∃ d, dev.drivers p = some d
  classDrivers : ∀ k, dev.classDrivers k ≠ nullptr → dev.classDrivers k = p

theorem Ready.canConfigure {dev : Device} {p : Addr} (h : Ready dev p) : CanConfigure dev where
  ring := by
    obtain ⟨s, tr, history, hinv, rfl, -⟩ := h.idle
    exact ⟨tr, history, hinv.ring, hinv.remembers⟩
  present k hk := by
    rw [h.classDrivers k hk]
    exact h.present

/-- `OnEndpointsConfigured` passes over null pointers, so entries from `i` on that are all null
make no call. -/
theorem onEndpointsConfiguredFrom_null {dev : Device} (left : Nat) : ∀ {i : Nat},
    (∀ k : Fin 16, i ≤ k.val → dev.classDrivers k = nullptr) →
    dev.onEndpointsConfiguredFrom left i = .ok (.kSuccess, dev) := by
  induction left with
  | zero => exact fun _ => rfl
  | succ left ih =>
      intro i hnull
      unfold onEndpointsConfiguredFrom
      split
      · rename_i hi
        dsimp only
        rw [if_neg (not_not.mpr (hnull ⟨i, hi⟩ (Nat.le_refl i)))]
        exact ih fun k hk => hnull k (Nat.le_of_succ_le hk)
      · rfl

/-- With one entry of `class_drivers_` that is not null, `OnEndpointsConfigured` is one call of
that class driver. -/
theorem onEndpointsConfiguredFrom_one {dev dev' : Device} {n : Fin 16} (left : Nat) :
    ∀ {i : Nat}, i + left = 16 → i ≤ n.val →
      (∀ k, dev.classDrivers k ≠ nullptr ↔ k = n) →
      dev.driverOnEndpointsConfigured (dev.classDrivers n) = .ok (.kSuccess, dev') →
      dev'.classDrivers = dev.classDrivers →
      dev.onEndpointsConfiguredFrom left i = .ok (.kSuccess, dev') := by
  induction left with
  | zero =>
      intro i hleft hle
      omega
  | succ left ih =>
      intro i hleft hle hone hcall hclass
      have hi : i < 16 := by omega
      rw [onEndpointsConfiguredFrom, dif_pos hi]
      dsimp only
      by_cases hn : (⟨i, hi⟩ : Fin 16) = n
      · rw [if_pos ((hone _).mpr hn), hn, hcall]
        change dev'.onEndpointsConfiguredFrom left (i + 1) = _
        refine onEndpointsConfiguredFrom_null left fun k hk => ?_
        rw [hclass]
        by_contra hne
        have hkn := (hone k).mp hne
        rw [hkn, ← hn] at hk
        exact absurd hk (Nat.not_succ_le_self i)
      · rw [if_neg fun hne => hn ((hone _).mp hne)]
        refine ih (by omega) ?_ hone hcall hclass
        have hval : i ≠ n.val := fun heq => hn (Fin.ext heq)
        omega

/-- `InterruptIn` has an implementation in the xHCI device, so it never returns
`kNotImplemented`. -/
theorem interruptIn_implemented {dev dev' : Device} {epId : EndpointID} {buf : Addr} {len : Int}
    {err : Error} (h : dev.interruptIn epId buf len = .ok (err, dev')) :
    err ≠ .kNotImplemented := by
  unfold interruptIn at h
  obtain ⟨i, -, h⟩ := bind_eq_ok.mp h
  split at h
  · cases h
    decide
  · obtain ⟨⟨position, tr⟩, -, h⟩ := bind_eq_ok.mp h
    cases h
    decide

/-- The first completion of a class driver that has been configured. -/
theorem driverOnControlCompleted_first {dev dev' : Device} {p : Addr} {d : HidDriver}
    {err : Error} (hd : dev.drivers p = some d) (hphase : d.initializePhase = 1)
    (h : dev.driverOnControlCompleted p = .ok (err, dev')) : err ≠ .kNotImplemented := by
  obtain ⟨d', hd', hcases⟩ := driverOnControlCompleted_cases h
  obtain rfl := Option.some.inj (hd.symm.trans hd')
  rcases hcases with ⟨-, h⟩ | ⟨hother, -⟩
  · exact interruptIn_implemented h
  · exact absurd hphase hother

/-- **A class driver is prepared for one completion**: the next is answered with
`kNotImplemented`. -/
theorem driverOnControlCompleted_again {dev dev' : Device} {p : Addr} {err : Error}
    (h : dev.driverOnControlCompleted p = .ok (err, dev')) :
    dev'.driverOnControlCompleted p = .ok (.kNotImplemented, dev') := by
  have hnext : ∀ d, dev'.drivers p = some d → d.initializePhase ≠ 1 →
      dev'.driverOnControlCompleted p = .ok (.kNotImplemented, dev') := by
    intro d hd hphase
    unfold driverOnControlCompleted driverAt
    rw [hd]
    exact if_neg hphase
  obtain ⟨d, hd, ⟨-, h⟩ | ⟨hphase, -, rfl⟩⟩ := driverOnControlCompleted_cases h
  · have hdrivers : dev'.drivers p = some { d with initializePhase := 2 } := by
      rcases interruptIn_cases h with rfl | ⟨i, tr, -, rfl⟩
      · exact Function.update_self _ _ _
      · exact Function.update_self _ _ _
    exact hnext _ hdrivers (Nat.succ_ne_self 1)
  · exact hnext d hd hphase

/-- **What one call leaves behind**: a request under way, the driver waiting for it, and nothing
else of either kind. -/
theorem Ready.call {dev dev' : Device} {p : Addr} {d : HidDriver} (h : Ready dev p)
    (hd : dev.drivers p = some d)
    (hcall : dev.driverOnEndpointsConfigured p = .ok (.kSuccess, dev')) :
    (∃ ioc first, UnderWay dev' ⟨setProtocolData d.interfaceIndex, nullptr, 0, ioc, first⟩) ∧
      dev'.isInitialized = true ∧
      dev'.eventWaiters.entries = [(setProtocolData d.interfaceIndex, p)] ∧
      dev'.drivers p = some { d with initializePhase := 1 } := by
  rw [driverOnEndpointsConfigured_eq hd] at hcall
  let dev₁ := dev.setDriver p { d with initializePhase := 1 }
  have hidle : RequestSystem.Idle dev₁ := idle_of_eq h.idle rfl rfl
  obtain ⟨hwaiters, hinit⟩ := control_waiters h.nonnull hcall
  refine ⟨underWay_of_control hidle (le_refl 0) (by decide) hcall, ?_, ?_, ?_⟩
  · exact hinit.trans h.isInitialized
  · have hroom : dev₁.eventWaiters.entries.length < 4 := by
      change dev.eventWaiters.entries.length < 4
      rw [h.waiters]
      decide
    have hput := ArrayMap.entries_put dev₁.eventWaiters (setProtocolData d.interfaceIndex) p hroom
    change (dev₁.eventWaiters.put _ p).entries.Perm (_ :: dev.eventWaiters.entries) at hput
    rw [h.waiters] at hput
    rw [hwaiters]
    exact List.perm_singleton.mp hput
  · rw [control, if_neg (by decide)] at hcall
    rw [controlTransfer_drivers hcall]
    exact Function.update_self _ _ _

/-- The completion of the only request goes to the driver that waits for it, which is in its
phase 1 and so expects it. -/
theorem UnderWay.answered {dev : Device} {p : Addr} {d : HidDriver} {o : Transfer}
    (h : UnderWay dev o) (hlen : o.len = 0) (hinit : dev.isInitialized = true)
    (hwaiters : dev.eventWaiters.entries = [(o.setupData, p)]) (hd : dev.drivers p = some d)
    (hphase : d.initializePhase = 1) (m : Dma) (obs : DefaultObservers) (pool : Usb.Pool)
    {events : List Trb} (hreports : dev.Reports events) :
    .kNotImplemented ∉ answersTo m obs dev pool events := by
  obtain ⟨setupTrb, hentries, -⟩ := h.entries
  have hperm := hreports.perm
  rw [hentries] at hperm
  obtain ⟨trb, rfl, hioc⟩ := List.map_eq_singleton_iff.mp (List.perm_singleton.mp hperm)
  obtain ⟨hcode, hlength⟩ := hreports.complete trb (List.mem_singleton_self trb)
  have hres : ((eventTransferLength trb).toNat : Int) ≤ o.len := by
    rw [hlength, hlen]
    decide
  obtain ⟨len, hdecode⟩ := h.decode m hioc hcode hres
  have hget : dev.eventWaiters.get o.setupData = some p := by
    refine (ArrayMap.get_eq_some_iff ?_).mpr ?_
    · rw [hwaiters]
      exact List.nodup_singleton _
    · rw [hwaiters]
      exact List.mem_singleton_self _
  have hreceived := onTransferEventReceived_passOn obs pool hinit hdecode
  change _ = passOn _ pool (dev.eventWaiters.get o.setupData) at hreceived
  rw [hget, passOn] at hreceived
  unfold answersTo
  rw [hreceived]
  generalize hresult : driverOnControlCompleted _ p = result
  cases result with
  | error f => exact List.not_mem_nil
  | ok answer =>
      have hfirst := driverOnControlCompleted_first (by exact hd) hphase hresult
      exact fun hmem => hfirst (List.mem_singleton.mp hmem).symm

/-- **One entry of `class_drivers_`** is what it takes: the driver is called once and its one
request is answered; with a second entry it is called again. -/
theorem Ready.configuresOnce {dev : Device} {p : Addr} (h : Ready dev p) :
    ConfiguresOnce dev ↔ ∀ j k, dev.classDrivers j = p → dev.classDrivers k = p → j = k := by
  constructor
  · rintro ⟨dev', -, hone⟩ j k hj hk
    have hp : dev.IsClassDriver p := ⟨h.nonnull, j, hj⟩
    exact (count_calls_eq_one_iff h.canConfigure hp).mp (hone.called p hp) j k hj hk
  · intro hsame
    have hclass : ∀ q, dev.IsClassDriver q → q = p := by
      rintro q ⟨hne, k, rfl⟩
      exact h.classDrivers k hne
    have hcalled : ∀ q, dev.IsClassDriver q → (dev.endpointsConfiguredCalls 16 0).count q = 1 := by
      intro q hq
      obtain rfl := hclass q hq
      exact (count_calls_eq_one_iff h.canConfigure hq).mpr hsame
    by_cases hp : dev.IsClassDriver p
    · obtain ⟨n, hn⟩ := hp.2
      obtain ⟨d, hd⟩ := h.present
      have hentry : ∀ k, dev.classDrivers k ≠ nullptr ↔ k = n := by
        intro k
        constructor
        · exact fun hk => hsame k n (h.classDrivers k hk) hn
        · rintro rfl
          rw [hn]
          exact h.nonnull
      obtain ⟨dev', hcall, -, hkeeps⟩ := h.canConfigure.call hd
      obtain ⟨⟨ioc, first, hunder⟩, hinit, hwaiters, hdriver⟩ := h.call hd hcall
      obtain ⟨setupTrb, hentries, hread⟩ := hunder.entries
      have hreturns : dev.onEndpointsConfigured = .ok (.kSuccess, dev') :=
        onEndpointsConfiguredFrom_one 16 (Nat.zero_add 16) (Nat.zero_le _) hentry
          (hn.symm ▸ hcall) hkeeps
      refine ⟨dev', hreturns, hcalled, ?_, ?_, ?_⟩
      · intro q d' hq hd' m
        obtain rfl := hclass q hq
        obtain rfl := Option.some.inj (hd.symm.trans hd')
        rw [requestsUnderWay, hentries, List.map_singleton, hread m]
        exact List.count_singleton_self
      · intro q d' hq hd'
        obtain rfl := hclass q hq
        obtain rfl := Option.some.inj (hd.symm.trans hd')
        rw [hwaiters]
        exact List.count_singleton_self
      · intro m obs pool events hreports
        exact hunder.answered rfl hinit hwaiters hdriver rfl m obs pool hreports
    · have hnull : ∀ k, dev.classDrivers k = nullptr := by
        intro k
        by_contra hne
        exact hp ⟨h.nonnull, k, h.classDrivers k hne⟩
      have hnone : ∀ q, ¬ dev.IsClassDriver q := fun q hq => hp (hclass q hq ▸ hq)
      refine ⟨dev, onEndpointsConfiguredFrom_null 16 fun k _ => hnull k, hcalled,
        fun q d hq => absurd hq (hnone q), fun q d hq => absurd hq (hnone q), ?_⟩
      intro m obs pool events hreports
      obtain ⟨s, tr, history, hinv, rfl, hidle⟩ := h.idle
      have hentries := hinv.entries
      rw [hidle] at hentries
      have hperm := hreports.perm
      rw [List.perm_nil.mp hentries] at hperm
      rw [List.map_eq_nil_iff.mp (List.perm_nil.mp hperm)]
      exact List.not_mem_nil

end Device

end Mikanos.Xhci
