import Mikanos.Xhci.PortAddressing

/-!
# Handing over to a waiting port

When a device has got its address, the handler looks for a port that waits and
takes it.  The loop stops at the first one it finds, and `ResetPort` succeeds
without doing anything when the device at that port has gone.  Then
`addressing_port` stays 0, and a port that waits behind it is not looked at
again: nothing in the driver starts a port that waits but this loop.

`hand_over_iff` says exactly when this happens, `hand_over_forgets` is a run in
which it does.
-/

namespace Mikanos.Xhci

open Relation

namespace Controller

/-- The device at `port` stays connected while the call runs. -/
def ConnectedThroughout (env : Surroundings) (port : BitVec 8) : Prop :=
  ∀ k, (env.portsc port k).currentConnectStatus = true

/-- `ProcessEvent` finds the completion of an Address Device command and accepts
it. -/
structure AcceptsAddressed (env : Surroundings) (trb : Trb) (c c' : Controller) : Prop where
  hasFront : c.er.hasFront = .ok true
  front : c.er.front = .ok trb
  event : trb.trbType = commandCompletionEventType
  issuer : (trbAt env c trb.pointer60).trbType = addressDeviceCommandType
  call : processEvent env c = .ok (.kSuccess, c')

/-- No waiting port is forgotten: if one is connected, some port has been
taken. -/
def NoneForgotten (env : Surroundings) (c' : Controller) : Prop :=
  (∃ p, c'.portConfigPhase p = .kWaitingAddressed ∧ ConnectedThroughout env p) →
    c'.addressingPort ≠ 0

/-- The waiting port with the lowest number is connected when `ResetPort` asks. -/
def LowestWaitingConnected (env : Surroundings) (c : Controller) : Prop :=
  ∃ port, c.portConfigPhase port = .kWaitingAddressed ∧
    (∀ p, p.toNat < port.toNat → c.portConfigPhase p ≠ .kWaitingAddressed) ∧
    (env.portsc port 0).currentConnectStatus = true

/-- The port the loop stops at is the only one that waits with none below it waiting, so it is
determined by the phases. -/
theorem firstWaiting_eq_of_lowest {c : Controller} {port : BitVec 8}
    (hwaiting : c.portConfigPhase port = .kWaitingAddressed)
    (hlowest : ∀ p, p.toNat < port.toNat → c.portConfigPhase p ≠ .kWaitingAddressed) :
    c.firstWaiting = some port := by
  cases hfirst : c.firstWaiting with
  | none => exact absurd hwaiting (firstWaiting_eq_none hfirst port)
  | some q =>
      obtain ⟨hq, hbelow⟩ := firstWaiting_eq_some hfirst
      have hle : ¬ q.toNat < port.toNat := fun hlt => hlowest q hlt hq
      have hge : ¬ port.toNat < q.toNat := fun hlt => hbelow port hlt hwaiting
      exact congrArg some (BitVec.eq_of_toNat_eq (by omega))

/-- What an accepted completion does to the phases and to `addressing_port`: a connected first
waiting port gets the turn, and without one nobody has it. -/
theorem AcceptsAddressed.cases {env : Surroundings} {trb : Trb} {c c' : Controller}
    (h : AcceptsAddressed env trb c c') :
    c.portConfigPhase c.addressingPort = .kAddressingDevice ∧
    (((c.firstWaiting = none ∨ ∃ port, c.firstWaiting = some port ∧
          (env.portsc port 0).currentConnectStatus = false) ∧
        c'.addressingPort = 0 ∧
        c'.portConfigPhase =
          Function.update c.portConfigPhase c.addressingPort .kInitializingDevice) ∨
      ∃ port, c.firstWaiting = some port ∧
        (env.portsc port 0).currentConnectStatus = true ∧ c'.addressingPort = port) := by
  rcases processEvent_cases h.call with ⟨hnone, -, -⟩ | ⟨trb', c₁, -, hfront, hevent, rfl⟩
  · rw [h.hasFront] at hnone
    cases hnone
  · obtain rfl : trb = trb' := Except.ok.inj (h.front.symm.trans hfront)
    have hhandler : onEvent env trb c = onAddressDeviceCompleted env (eventSlotId trb) c := by
      unfold onEvent EventRing.dispatch
      rw [h.event, if_neg (by decide), if_neg (by decide), if_pos rfl]
      unfold onCommandCompletionEvent
      dsimp only
      rw [h.issuer, if_neg (by decide), if_pos rfl]
    rw [hhandler] at hevent
    rcases onAddressDeviceCompleted_cases hevent with ⟨hne, -⟩ |
      ⟨-, dev, dev', c₂, -, -, hphase, hhand, -, rfl⟩
    · exact absurd rfl hne
    · refine ⟨hphase, ?_⟩
      obtain ⟨-, hnext⟩ := handOver_cases (c := { c with addressingPort := 0 }) rfl hhand
      rcases hnext with ⟨hfirst, rfl⟩ | ⟨port, hfirst, hconnected, rfl⟩ |
        ⟨port, hfirst, hconnected, rfl⟩
      · exact Or.inl ⟨Or.inl hfirst, rfl, rfl⟩
      · exact Or.inl ⟨Or.inr ⟨port, hfirst, hconnected⟩, rfl, rfl⟩
      · exact Or.inr ⟨port, hfirst, hconnected, rfl⟩

/-- **When a waiting port is forgotten.**  In every reachable state, after every
accepted Address Device completion: no waiting port is forgotten if and only if
the waiting port with the lowest number is connected, or no waiting port is. -/
theorem hand_over_iff {c₀ c c' : Controller} {env : Surroundings} {trb : Trb}
    (hphases : ∀ p, c₀.portConfigPhase p = .kNotConnected)
    (hrun : ReflTransGen (Step NamesPort) c₀ c) (haccepts : AcceptsAddressed env trb c c') :
    NoneForgotten env c' ↔
      LowestWaitingConnected env c ∨
        ∀ p, c.portConfigPhase p = .kWaitingAddressed → ¬ ConnectedThroughout env p := by
  obtain ⟨-, hzero⟩ := run_moves (hphases 0) hrun
  obtain ⟨hphase, hcases⟩ := haccepts.cases
  have hkept : ∀ p, c.portConfigPhase p = .kWaitingAddressed → p ≠ c.addressingPort := by
    intro p hwaiting heq
    rw [heq, hphase] at hwaiting
    cases hwaiting
  constructor
  · intro hnone
    by_contra hcondition
    obtain ⟨hlowest, hothers⟩ := not_or.mp hcondition
    push Not at hothers
    obtain ⟨p, hwaiting, hconnected⟩ := hothers
    rcases hcases with ⟨-, haddressing, hphases'⟩ | ⟨port, hfirst, hport, -⟩
    · refine hnone ⟨p, ?_, hconnected⟩ haddressing
      rw [hphases', Function.update_of_ne (hkept p hwaiting), hwaiting]
    · obtain ⟨hwait, hbelow⟩ := firstWaiting_eq_some hfirst
      exact hlowest ⟨port, hwait, hbelow, hport⟩
  · rintro hcondition ⟨p, hwaiting, hconnected⟩
    rcases hcases with ⟨hfirst, -, hphases'⟩ | ⟨port, hfirst, -, haddressing⟩
    · -- Nothing was taken: then no port waits, or the lowest one is not connected.
      have hbefore : c.portConfigPhase p = .kWaitingAddressed := by
        by_cases hp : p = c.addressingPort
        · rw [hphases', hp, Function.update_self] at hwaiting
          cases hwaiting
        · rw [hphases', Function.update_of_ne hp] at hwaiting
          exact hwaiting
      rcases hcondition with ⟨port, hwait, hbelow, hport⟩ | hothers
      · rw [firstWaiting_eq_of_lowest hwait hbelow] at hfirst
        rcases hfirst with hfirst | ⟨q, hq, hdisconnected⟩
        · cases hfirst
        · obtain rfl := Option.some.inj hq
          rw [hport] at hdisconnected
          cases hdisconnected
      · exact absurd hconnected (hothers p hbefore)
    · rw [haddressing]
      rintro rfl
      rw [(firstWaiting_eq_some hfirst).1] at hzero
      cases hzero

/-- Three connected ports: port 1 is waiting for its address, ports 2 and 3 wait
for port 1, and the completion of Address Device is on the event ring. -/
def threePorts : Controller :=
  (performed NamesPort sampleController
    [.configurePort (portsShow fun _ => 1) 1, .configurePort (portsShow fun _ => 1) 2,
      .configurePort (portsShow fun _ => 1) 3,
      .event (portsShow fun _ => 0x200003) (portStatusChangeEvent 1),
      .event (portsShow fun _ => 0x200003)
        (commandCompletionEvent (sampleController.cr.slotAddr 0) 1 1),
      .context 1 (slotContextOf 1)]).postEvent
    (commandCompletionEvent (sampleController.cr.slotAddr 1) 1 1)

/-- The run that leads there. -/
theorem threePorts_run : ReflTransGen (Step NamesPort) sampleController threePorts := by
  unfold threePorts
  exact (performed_run _ _ _).tail .hardware

/-- The event of the example is accepted, with `test` true of the state after it, so an example
can ask for what it wants of that state. -/
theorem threePorts_accepts (env : Surroundings) (test : Controller → Bool)
    (hfront : returns threePorts.er.front (fun trb =>
      trb.trbType == commandCompletionEventType &&
        (trbAt env threePorts trb.pointer60).trbType == addressDeviceCommandType) = true)
    (hcall : returns (processEvent env threePorts)
      (fun result => result.1 == .kSuccess && test result.2) = true) :
    ∃ trb c', AcceptsAddressed env trb threePorts c' ∧ test c' = true := by
  have hready : returns threePorts.er.hasFront id = true := by decide +kernel
  obtain ⟨ready, hhas, rfl⟩ := exists_of_returns hready
  obtain ⟨trb, hfront, htrb⟩ := exists_of_returns hfront
  obtain ⟨⟨err, c'⟩, hcall, htest⟩ := exists_of_returns hcall
  simp only [Bool.and_eq_true, beq_iff_eq] at htrb htest
  obtain ⟨rfl, htest⟩ := htest
  exact ⟨trb, c', ⟨hhas, hfront, htrb.1, htrb.2, hcall⟩, htest⟩

/-- **A waiting port is forgotten**: the device at port 2 has been unplugged when
port 1 is done, and port 3 is not taken although its device is connected. -/
theorem hand_over_forgets : ∃ trb c', ReflTransGen (Step NamesPort) sampleController threePorts ∧
    AcceptsAddressed (portsShow fun port => if port = 2 then 0 else 1) trb threePorts c' ∧
    ¬ NoneForgotten (portsShow fun port => if port = 2 then 0 else 1) c' := by
  obtain ⟨trb, c', haccepts, htest⟩ := threePorts_accepts
    (portsShow fun port => if port = 2 then 0 else 1)
    (fun c' => c'.addressingPort == 0 && c'.portConfigPhase 3 == .kWaitingAddressed)
    (by decide +kernel) (by decide +kernel)
  simp only [Bool.and_eq_true, beq_iff_eq] at htest
  have hconnected :
      PortSc.currentConnectStatus (if (3 : BitVec 8) = 2 then 0 else 1) = true := by decide
  exact ⟨trb, c', threePorts_run, haccepts, fun hnone =>
    hnone ⟨3, htest.2, fun _ => hconnected⟩ htest.1⟩

/-- With all three ports connected, port 2, the lowest one that waits, is taken and none is
forgotten. -/
theorem hand_over_iff_connected : ∃ trb c',
    AcceptsAddressed (portsShow fun _ => 1) trb threePorts c' ∧
      NoneForgotten (portsShow fun _ => 1) c' := by
  obtain ⟨trb, c', haccepts, -⟩ := threePorts_accepts (portsShow fun _ => 1)
    (fun _ => true) (by decide +kernel) (by decide +kernel)
  obtain ⟨writes, hinit⟩ := sampleController_initialized
  have hstarted := initializeController_started rfl hinit
  have hphases : ∀ p, sampleController.portConfigPhase p = .kNotConnected := by
    intro p
    rw [hstarted.phases]
    rfl
  have hlowest : LowestWaitingConnected (portsShow fun _ => 1) threePorts := by
    refine ⟨2, by decide +kernel, fun p hp => ?_, by decide⟩
    have hsmall : p = 0 ∨ p = 1 := by
      have : p.toNat < 2 := hp
      rcases Nat.lt_or_ge p.toNat 1 with h | h
      · exact Or.inl (BitVec.eq_of_toNat_eq (by simp; omega))
      · exact Or.inr (BitVec.eq_of_toNat_eq (by simp; omega))
    rcases hsmall with rfl | rfl <;> decide +kernel
  exact ⟨trb, c', haccepts, (hand_over_iff hphases threePorts_run haccepts).mpr (Or.inl hlowest)⟩

end Controller

end Mikanos.Xhci
