import Mikanos.Lib.Turnstile
import Mikanos.Xhci.ControllerRuns
import Mikanos.Xhci.Initialize

/-!
# One port at a time

Until a device has an address of its own it answers on address 0, so at most one
port may be between its reset and the completion of Address Device.  The driver
keeps this rule with `addressing_port`: it is the holder of a `Turnstile` whose
critical stages are `kResettingPort`, `kEnablingSlot` and `kAddressingDevice`.

`outcome_moves` shows that every handler is one move of the turnstile, the
completion of Address Device included, which frees the variable and may take
another port before the first one has left `kAddressingDevice`.  Port number 0
plays no part as long as no event names it: its phase never changes.
-/

namespace Mikanos.Xhci

open Relation

/-- The position of a phase in the order in which a port goes through them. -/
def ConfigPhase.rank : ConfigPhase → Nat
  | .kNotConnected => 0
  | .kWaitingAddressed => 1
  | .kResettingPort => 2
  | .kEnablingSlot => 3
  | .kAddressingDevice => 4
  | .kInitializingDevice => 5
  | .kConfiguringEndpoints => 6
  | .kConfigured => 7

instance : Preorder ConfigPhase := Preorder.lift ConfigPhase.rank

/-- The phases `addressing_port` is about. -/
def ConfigPhase.IsAddressing (p : ConfigPhase) : Prop :=
  p = .kResettingPort ∨ p = .kEnablingSlot ∨ p = .kAddressingDevice

instance (p q : ConfigPhase) : Decidable (p ≤ q) :=
  inferInstanceAs (Decidable (p.rank ≤ q.rank))

instance (p : ConfigPhase) : Decidable p.IsAddressing :=
  inferInstanceAs (Decidable (_ ∨ _ ∨ _))

namespace Controller

/-- Only ports with a number from 1 on report a change. -/
def NamesPort (_ : Surroundings) (_ : Controller) (trb : Trb) : Prop :=
  trb.trbType = portStatusChangeEventType → eventPortId trb ≠ 0

instance (env : Surroundings) (c : Controller) (trb : Trb) : Decidable (NamesPort env c trb) :=
  inferInstanceAs (Decidable (_ → _))

/-- The phases and `addressing_port`, 0 meaning that there is no such port. -/
def turnstile (c : Controller) : Turnstile.State (BitVec 8) ConfigPhase where
  stage := c.portConfigPhase
  holder := if c.addressingPort = 0 then none else some c.addressingPort

/-- A move of the turnstile of the ports. -/
abbrev Moves (c c' : Controller) : Prop :=
  Turnstile.Move ConfigPhase.IsAddressing c.turnstile c'.turnstile

/-- A port that changes its phase, but not whether it is being addressed, is a move that leaves
the turnstile as it is. -/
theorem advance_moves {c c' : Controller} {port : BitVec 8} {phase phase' : ConfigPhase}
    (hphase : c.portConfigPhase port = phase) (hle : phase ≤ phase')
    (hsame : phase.IsAddressing ↔ phase'.IsAddressing)
    (hphases : c'.portConfigPhase = Function.update c.portConfigPhase port phase')
    (haddressing : c'.addressingPort = c.addressingPort) : Moves c c' := by
  have hstate : c'.turnstile =
      ⟨Function.update c.turnstile.stage port phase', c.turnstile.holder⟩ := by
    unfold turnstile
    rw [hphases, haddressing]
  subst hphase
  unfold Moves
  rw [hstate]
  exact Turnstile.Move.advance (s := c.turnstile) hle hsame

/-- A port that has to wait. -/
theorem wait_moves {c : Controller} {port : BitVec 8}
    (hphase : c.portConfigPhase port = .kNotConnected) :
    Moves c (c.setPhase port .kWaitingAddressed) :=
  advance_moves hphase (by decide) (by decide) rfl rfl

/-- A port that is reset takes `addressing_port`, which was free, and enters the phases of
addressing. -/
theorem reset_moves {env : Surroundings} {c : Controller} {port : BitVec 8}
    (hphase : c.portConfigPhase port = .kNotConnected) (haddressing : c.addressingPort = 0)
    (hport : port ≠ 0) : Moves c (c.afterReset env port) := by
  have hstate : (c.afterReset env port).turnstile =
      ⟨Function.update c.turnstile.stage port .kResettingPort, some port⟩ :=
    Turnstile.State.ext rfl (if_neg hport)
  have hle : c.turnstile.stage port ≤ .kResettingPort := by
    show c.portConfigPhase port ≤ _
    rw [hphase]
    decide
  unfold Moves
  rw [hstate]
  exact Turnstile.Move.enter hle (if_pos haddressing) (by decide)

/-- The completion of Address Device frees the variable, or passes it on to the
port the hand-over loop found. -/
theorem addressed_moves {env : Surroundings} {c c₁ : Controller} {slotId : BitVec 8}
    {dev : Device} (hzero : c.portConfigPhase 0 = .kNotConnected)
    (hphase : c.portConfigPhase c.addressingPort = .kAddressingDevice)
    (hnext : c₁ = { c with addressingPort := 0 } ∨ ∃ port, c.firstWaiting = some port ∧
      c₁ = { c with addressingPort := 0 }.afterReset env port) :
    Moves c ((c₁.setPhase c.addressingPort .kInitializingDevice).setDevice slotId dev) := by
  have hnonzero : c.addressingPort ≠ 0 := by
    intro haddressing
    rw [haddressing, hzero] at hphase
    cases hphase
  have hholder : c.turnstile.holder = some c.addressingPort := if_neg hnonzero
  have hle : c.turnstile.stage c.addressingPort ≤ .kInitializingDevice := by
    show c.portConfigPhase c.addressingPort ≤ _
    rw [hphase]
    decide
  rcases hnext with rfl | ⟨port, hfirst, rfl⟩
  · exact Turnstile.Move.leave hle hholder (by decide)
  · obtain ⟨hwaiting, -⟩ := firstWaiting_eq_some hfirst
    have hne : c.addressingPort ≠ port := by
      intro heq
      rw [heq, hwaiting] at hphase
      cases hphase
    have hport : port ≠ 0 := by
      intro heq
      rw [heq, hzero] at hwaiting
      cases hwaiting
    have hstate : (((({ c with addressingPort := 0 } : Controller).afterReset env port).setPhase
        c.addressingPort .kInitializingDevice).setDevice slotId dev).turnstile =
        ⟨Function.update (Function.update c.turnstile.stage port .kResettingPort)
          c.addressingPort .kInitializingDevice, some port⟩ :=
      Turnstile.State.ext rfl (if_neg hport)
    have hle' : c.turnstile.stage port ≤ .kResettingPort := by
      show c.portConfigPhase port ≤ _
      rw [hwaiting]
      decide
    unfold Moves
    rw [hstate]
    exact Turnstile.Move.pass hholder hne hle (by decide) hle' (by decide)

/-- **Every handler is a move of the turnstile**, one case for each outcome of an event. -/
theorem outcome_moves {env : Surroundings} {trb : Trb} {c c' : Controller}
    (hnames : NamesPort env c trb) (hzero : c.portConfigPhase 0 = .kNotConnected)
    (h : EventOutcome env trb c c') : Moves c c' := by
  cases h with
  | refused => exact Turnstile.Move.stay c.turnstile
  | wait _ hphase _ => exact wait_moves hphase
  | reset htype hphase haddressing => exact reset_moves hphase haddressing (hnames htype)
  | enable _ hphase _ => exact advance_moves hphase (by decide) (by decide) rfl rfl
  | noSlot => exact Turnstile.Move.stay c.turnstile
  | address _ _ hphase => exact advance_moves hphase (by decide) (by decide) rfl rfl
  | addressed _ _ _ _ hphase hnext _ => exact addressed_moves hzero hphase hnext
  | transfer => exact Turnstile.Move.stay c.turnstile
  | @configure dev dev' pool position cr _ _ hphase hsame _ _ =>
      rw [← hsame.slotContext] at hphase
      exact advance_moves hphase (by decide) (by decide) rfl rfl
  | configured _ _ _ hphase _ => exact advance_moves hphase (by decide) (by decide) rfl rfl

/-- No handler changes the phase of a port that is not connected, except for the
port an event names. -/
theorem outcome_zero {env : Surroundings} {trb : Trb} {c c' : Controller}
    (hnames : NamesPort env c trb) (hzero : c.portConfigPhase 0 = .kNotConnected)
    (h : EventOutcome env trb c c') : c'.portConfigPhase 0 = .kNotConnected := by
  have hother : ∀ port phase, port ≠ 0 →
      Function.update c.portConfigPhase port phase 0 = .kNotConnected := by
    intro port phase hport
    rw [Function.update_of_ne (Ne.symm hport), hzero]
  have hne : ∀ {port phase}, c.portConfigPhase port = phase → phase ≠ .kNotConnected →
      port ≠ 0 := by
    intro port phase hphase hphase' hport
    rw [hport, hzero] at hphase
    exact hphase' hphase.symm
  cases h with
  | refused => exact hzero
  | wait htype _ _ => exact hother _ _ (hnames htype)
  | reset htype _ _ => exact hother _ _ (hnames htype)
  | enable htype _ _ => exact hother _ _ (hnames htype)
  | noSlot => exact hzero
  | address _ _ hphase => exact hother _ _ (hne hphase (by decide))
  | addressed _ _ _ _ hphase hnext _ =>
      have hport := hne hphase (by decide)
      rcases hnext with rfl | ⟨port, hfirst, rfl⟩
      · exact hother _ _ hport
      · have hwaiting := hne (firstWaiting_eq_some hfirst).1 (by decide)
        exact (Function.update_of_ne (Ne.symm hport) _ _).trans (hother _ _ hwaiting)
  | transfer => exact hzero
  | configure _ _ hphase hsame _ _ =>
      rw [← hsame.slotContext] at hphase
      exact hother _ _ (hne hphase (by decide))
  | configured _ _ _ hphase _ => exact hother _ _ (hne hphase (by decide))

/-- **Step lemma.** A step of the system is a move of the turnstile, and port 0 stays
unconnected. -/
theorem step_moves {c c' : Controller} (hzero : c.portConfigPhase 0 = .kNotConnected)
    (hstep : Step NamesPort c c') : Moves c c' ∧ c'.portConfigPhase 0 = .kNotConnected := by
  cases hstep with
  | @configurePort env _ _ port err hpos hmax hcall =>
      have hport : port ≠ 0 := by
        rintro rfl
        exact absurd hpos (by decide)
      rcases configurePort_cases hcall with rfl | ⟨hphase, -, rfl⟩ | ⟨hphase, haddressing, rfl⟩
      · exact ⟨Turnstile.Move.stay _, hzero⟩
      · exact ⟨wait_moves hphase, (Function.update_of_ne (Ne.symm hport) _ _).trans hzero⟩
      · exact ⟨reset_moves hphase haddressing hport,
          (Function.update_of_ne (Ne.symm hport) _ _).trans hzero⟩
  | processEvent hallowed hcall =>
      rcases processEvent_cases hcall with ⟨-, -, rfl⟩ | ⟨trb, c₁, hhas, hfront, hevent, rfl⟩
      · exact ⟨Turnstile.Move.stay _, hzero⟩
      · have houtcome := onEvent_outcome hevent
        have hmoves := outcome_moves (hallowed trb hhas hfront) hzero houtcome
        have hzero' := outcome_zero (hallowed trb hhas hfront) hzero houtcome
        exact ⟨hmoves, hzero'⟩
  | hardware => exact ⟨Turnstile.Move.stay _, hzero⟩

/-- **Run lemma**: a run of the driver is a run of the turnstile. -/
theorem run_moves {c c' : Controller} (hzero : c.portConfigPhase 0 = .kNotConnected)
    (hrun : ReflTransGen (Step NamesPort) c c') :
    ReflTransGen (Turnstile.Move ConfigPhase.IsAddressing) c.turnstile c'.turnstile ∧
      c'.portConfigPhase 0 = .kNotConnected := by
  induction hrun with
  | refl => exact ⟨.refl, hzero⟩
  | tail _ hstep ih =>
      obtain ⟨hmoves, hzero'⟩ := ih
      obtain ⟨hmove, hzero''⟩ := step_moves hzero' hstep
      exact ⟨hmoves.tail hmove, hzero''⟩

/-- What the turnstile says about `addressing_port`: the port it names is the one port being
addressed, and with 0 there is none. -/
theorem exclusive_iff (c : Controller) :
    Turnstile.Exclusive ConfigPhase.IsAddressing c.turnstile ↔
      (c.addressingPort ≠ 0 → (c.portConfigPhase c.addressingPort).IsAddressing ∧
        ∀ p, p ≠ c.addressingPort → ¬ (c.portConfigPhase p).IsAddressing) ∧
      (c.addressingPort = 0 → ∀ p, ¬ (c.portConfigPhase p).IsAddressing) := by
  by_cases haddressing : c.addressingPort = 0
  · simp [Turnstile.Exclusive, haddressing, turnstile]
  · have hholder : c.turnstile.holder = some c.addressingPort := if_neg haddressing
    unfold Turnstile.Exclusive
    rw [hholder]
    constructor
    · intro h
      refine ⟨fun _ => ⟨(h _).mpr rfl, fun p hp hin => hp ?_⟩, fun h0 => absurd h0 haddressing⟩
      exact (Option.some.inj ((h p).mp hin)).symm
    · rintro ⟨h, -⟩ p
      obtain ⟨hin, hothers⟩ := h haddressing
      constructor
      · intro hp
        by_contra hne
        exact hothers p (fun heq => hne (congrArg some heq.symm)) hp
      · intro hp
        rw [← Option.some.inj hp]
        exact hin

/-- **At most one port is being addressed.**  In every run that starts with all
ports in `kNotConnected` and `addressing_port` 0, in which the ports named by
Port Status Change Events are numbered from 1:

* if `addressing_port` is not 0, then this port is in one of the phases from its
  reset to Address Device and no other port is;
* if it is 0, then no port is in any of these phases;
* from there on, no port ever goes back to an earlier phase. -/
theorem port_addressing {c₀ c : Controller}
    (hphases : ∀ p, c₀.portConfigPhase p = .kNotConnected) (haddressing : c₀.addressingPort = 0)
    (hrun : ReflTransGen (Step NamesPort) c₀ c) :
    (c.addressingPort ≠ 0 → (c.portConfigPhase c.addressingPort).IsAddressing ∧
        ∀ p, p ≠ c.addressingPort → ¬ (c.portConfigPhase p).IsAddressing) ∧
      (c.addressingPort = 0 → ∀ p, ¬ (c.portConfigPhase p).IsAddressing) ∧
      ∀ c', ReflTransGen (Step NamesPort) c c' →
        ∀ p, (c.portConfigPhase p).rank ≤ (c'.portConfigPhase p).rank := by
  have hstart : Turnstile.Exclusive ConfigPhase.IsAddressing c₀.turnstile := by
    refine (exclusive_iff c₀).mpr ⟨fun hne => absurd haddressing hne, fun _ p => ?_⟩
    rw [hphases p]
    decide
  obtain ⟨hmoves, hzero⟩ := run_moves (hphases 0) hrun
  obtain ⟨hone, hnone⟩ := (exclusive_iff c).mp (Turnstile.exclusive_of_run hstart hmoves)
  refine ⟨hone, hnone, fun c' hrun' p => ?_⟩
  exact Turnstile.stage_le_of_run (run_moves hzero hrun').1 p

/-- A controller with three ports, port 1 of which is configured first: it is the port being
addressed, and no other port is in a phase of addressing. -/
theorem port_addressing_first_port :
    ∃ c, ReflTransGen (Step NamesPort) sampleNew c ∧ c.addressingPort = 1 ∧
      ∀ p, p ≠ 1 → ¬ (c.portConfigPhase p).IsAddressing := by
  have hcall : configurePort (portsShow fun _ => 1) sampleNew 1 =
      .ok (.kSuccess, sampleNew.afterReset (portsShow fun _ => 1) 1) := rfl
  have hstep : Step NamesPort sampleNew _ := .configurePort (by decide) (by decide) hcall
  have hrun := ReflTransGen.single hstep
  obtain ⟨hone, -, -⟩ := port_addressing (fun _ => rfl) rfl hrun
  exact ⟨_, hrun, rfl, (hone (by decide)).2⟩

end Controller

end Mikanos.Xhci
