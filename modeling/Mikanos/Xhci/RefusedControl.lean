import Mikanos.Xhci.SwallowedErrors

/-!
# Refused control transfers

`xhci::Device::ControlIn` and `ControlOut` call the function of the base class first, which
enters the issuer into `event_waiters_`.  Only then do they look at the endpoint number and at
the transfer ring.  A transfer that is refused there has left an entry behind, unless it had no
issuer or there was no room for the entry (`noTrace_iff`).

The endpoint address 0 is a case of its own.  Its number 0 passes the test, and the ring that is
looked for is `transfer_rings_[-1]`, a subscript outside the array.
-/

namespace Mikanos.Xhci

open Mikanos.Usb

namespace Device

/-- `ControlIn` or `ControlOut` on any endpoint. -/
def controlOn (dev : Device) (dirIn : Bool) (epId : EndpointID) (setupData : SetupData)
    (buf : Addr) (len : Int) (issuer : Addr) : Except Fault (Error × Device) :=
  if dirIn then dev.controlIn epId setupData buf len issuer
  else dev.controlOut epId setupData buf len issuer

/-- The endpoint number is not one, or the endpoint has no transfer ring. -/
def Refuses (dev : Device) (epId : EndpointID) : Prop :=
  (epId.number < 0 ∨ 15 < epId.number) ∨
    ∃ i, dciIndex epId.address = .ok i ∧ dev.transferRings i = none

variable {dev dev' : Device} {dirIn : Bool} {epId : EndpointID} {setupData : SetupData}
  {buf : Addr} {len : Int} {issuer : Addr} {err : Error}

/-- **What a refused transfer does**: an error is returned, the issuer is entered in
`event_waiters_`, and nothing else changes. -/
theorem controlOn_refused (h : dev.Refuses epId) :
    ∃ err, err ≠ .kSuccess ∧ dev.controlOn dirIn epId setupData buf len issuer =
      .ok (err, dev.addWaiter setupData issuer) := by
  have hcommon : ∃ err, err ≠ .kSuccess ∧ ∀ type dirIn status,
      dev.controlTransfer type dirIn status epId setupData buf len issuer =
        .ok (err, dev.addWaiter setupData issuer) := by
    by_cases hnumber : epId.number < 0 ∨ 15 < epId.number
    · refine ⟨.kInvalidEndpointNumber, by decide, fun type dirIn status => ?_⟩
      rw [controlTransfer, if_pos hnumber]
      rfl
    · obtain ⟨i, hi, hring⟩ := h.resolve_left hnumber
      refine ⟨.kTransferRingNotSet, by decide, fun type dirIn status => ?_⟩
      rw [← addWaiter_transferRings dev setupData issuer] at hring
      simp only [controlTransfer, if_neg hnumber, hi, bind, bind_ok, hring]
      rfl
  obtain ⟨err, herr, hcall⟩ := hcommon
  refine ⟨err, herr, ?_⟩
  cases dirIn with
  | true => exact hcall _ _ _
  | false => exact hcall _ _ _

/-- Any other transfer succeeds, if it comes back at all: there is no further test that could
return an error. -/
theorem controlOn_accepted (h : ¬ dev.Refuses epId)
    (hcall : dev.controlOn dirIn epId setupData buf len issuer = .ok (err, dev')) :
    err = .kSuccess := by
  have hcommon : ∀ type dirIn status,
      dev.controlTransfer type dirIn status epId setupData buf len issuer = .ok (err, dev') →
        err = .kSuccess := by
    intro type dirIn status hcall
    unfold controlTransfer at hcall
    split at hcall
    · rename_i hnumber
      exact absurd (Or.inl hnumber) h
    · obtain ⟨i, hi, hcall⟩ := bind_eq_ok.mp hcall
      split at hcall
      · rename_i hnone
        rw [addWaiter_transferRings] at hnone
        exact absurd (Or.inr ⟨i, hi, hnone⟩) h
      · obtain ⟨pushed, -, hcall⟩ := bind_eq_ok.mp hcall
        cases hcall
        rfl
  cases dirIn with
  | true => exact hcommon _ _ _ hcall
  | false => exact hcommon _ _ _ hcall

/-- **A transfer leaves `transfer_rings_`** exactly for the endpoint address 0, whose subscript
is -1. -/
theorem controlOn_outOfBounds_iff :
    dev.controlOn dirIn epId setupData buf len issuer = .error .outOfBounds ↔
      epId.address = 0 := by
  have hcommon : ∀ type dirIn status,
      dev.controlTransfer type dirIn status epId setupData buf len issuer =
        .error .outOfBounds ↔ epId.address = 0 := by
    intro type dirIn status
    unfold controlTransfer
    by_cases hnumber : epId.number < 0 ∨ 15 < epId.number
    · rw [if_pos hnumber]
      refine iff_of_false (fun h => by cases h) fun hzero => ?_
      rw [EndpointID.number, show epId.addr = 0 from hzero] at hnumber
      exact absurd hnumber (by decide)
    · rw [if_neg hnumber]
      by_cases hzero : epId.address = 0
      · have hindex : dciIndex epId.address = .error .outOfBounds := by
          rw [hzero]
          rfl
        refine iff_of_true ?_ hzero
        simp only [hindex]
        rfl
      · have hdci : 1 ≤ epId.address ∧ epId.address ≤ 31 := by
          unfold EndpointID.number at hnumber
          unfold EndpointID.address at hzero ⊢
          omega
        obtain ⟨i, hindex⟩ : ∃ i, dciIndex epId.address = .ok i := ⟨_, dif_pos hdci⟩
        refine iff_of_false ?_ hzero
        simp only [hindex, bind, bind_ok]
        cases (dev.addWaiter setupData issuer).transferRings i with
        | none => exact fun h => by cases h
        | some tr => exact bind_ne_error (pushTransfer_ne_error (by decide)) fun _ _ h => by cases h
  cases dirIn with
  | true => exact hcommon _ _ _
  | false => exact hcommon _ _ _

/-- All that a control transfer may change is the same in both devices. -/
structure SameTransfers (dev dev' : Device) : Prop where
  eventWaiters : dev'.eventWaiters = dev.eventWaiters
  setupStageMap : dev'.setupStageMap = dev.setupStageMap
  transferRings : dev'.transferRings = dev.transferRings
  doorbell : dev'.doorbell = dev.doorbell

/-- **A request that returns an error leaves no trace**, and a second attempt, on a right
endpoint number or after the missing ring has been set, does what a first one does.  A
request that reads outside `transfer_rings_`, so that its error is one of chance, has
broken the promise. -/
def NoTrace (dev : Device) (dirIn : Bool) (epId : EndpointID) (setupData : SetupData)
    (buf : Addr) (len : Int) (issuer : Addr) : Prop :=
  dev.controlOn dirIn epId setupData buf len issuer ≠ .error .outOfBounds ∧
  ∀ err dev', dev.controlOn dirIn epId setupData buf len issuer = .ok (err, dev') →
    err ≠ .kSuccess → SameTransfers dev dev' ∧ ∀ i tr epId',
      (dev'.setRing i tr).controlOn dirIn epId' setupData buf len issuer =
        (dev.setRing i tr).controlOn dirIn epId' setupData buf len issuer

/-- An issuer leaves the table as it is if there is none, or no room. -/
theorem addWaiter_eventWaiters_iff :
    (dev.addWaiter setupData issuer).eventWaiters = dev.eventWaiters ↔
      issuer = nullptr ∨ dev.eventWaiters.entries.length = 4 := by
  unfold addWaiter
  by_cases hissuer : issuer ≠ nullptr
  · rw [if_pos hissuer, or_iff_right hissuer]
    exact ArrayMap.put_eq_self_iff
  · rw [if_neg hissuer]
    exact iff_of_true rfl (Or.inl (not_not.mp hissuer))

/-- The table is all that the base class touches. -/
theorem addWaiter_eq_self
    (h : (dev.addWaiter setupData issuer).eventWaiters = dev.eventWaiters) :
    dev.addWaiter setupData issuer = dev := by
  unfold addWaiter at h ⊢
  split
  · rw [if_pos ‹_›] at h
    change dev.eventWaiters.put setupData issuer = dev.eventWaiters at h
    rw [h]
  · rfl

/-- **When a request leaves no trace**: if its endpoint address is not 0 and it is not refused,
or has no issuer, or finds `event_waiters_` full. In every other case the issuer stays in the
map although the call has failed. -/
theorem noTrace_iff (dev : Device) (dirIn : Bool) (epId : EndpointID) (setupData : SetupData)
    (buf : Addr) (len : Int) (issuer : Addr) :
    dev.NoTrace dirIn epId setupData buf len issuer ↔
      epId.address ≠ 0 ∧
        (¬ dev.Refuses epId ∨ issuer = nullptr ∨ dev.eventWaiters.entries.length = 4) := by
  refine and_congr (not_congr controlOn_outOfBounds_iff) ?_
  constructor
  · intro hnone
    by_cases hrefused : dev.Refuses epId
    · obtain ⟨err, herr, hcall⟩ :=
        @controlOn_refused dev dirIn epId setupData buf len issuer hrefused
      have hsame := (hnone err _ hcall herr).1.eventWaiters
      exact Or.inr (addWaiter_eventWaiters_iff.mp hsame)
    · exact Or.inl hrefused
  · intro h err dev' hcall herr
    rcases h with haccepted | hquiet
    · exact absurd (controlOn_accepted haccepted hcall) herr
    · have hrefused : dev.Refuses epId := by
        by_contra haccepted
        exact herr (controlOn_accepted haccepted hcall)
      obtain ⟨err', _, hcall'⟩ :=
        @controlOn_refused dev dirIn epId setupData buf len issuer hrefused
      rw [addWaiter_eq_self (addWaiter_eventWaiters_iff.mpr hquiet), hcall] at hcall'
      cases hcall'
      exact ⟨⟨rfl, rfl, rfl, rfl⟩, fun _ _ _ => rfl⟩

/-- A class driver asks for a transfer on an endpoint that has no ring: the request fails, and
the driver has become a waiter for it. -/
theorem noTrace_fails_ringless : ¬ (Device.new 0x10000 1).NoTrace false kDefaultControlPipeID
    ⟨0x21, 11, 0, 0, 0⟩ nullptr 0 0x20000 := by
  intro h
  have hsame := (h.2 .kTransferRingNotSet _ rfl (by decide)).1.eventWaiters
  have hfull := (addWaiter_eventWaiters_iff.mp hsame).resolve_left (by decide)
  exact absurd hfull (by decide)

end Device

end Mikanos.Xhci
