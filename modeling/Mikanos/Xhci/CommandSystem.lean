import Mikanos.Xhci.Commands
import Mikanos.Xhci.EventRingFifo

/-!
# The driver and the controller

`CommandSystem` is the driver together with a controller that answers its
commands: each command that is pushed is unanswered until the controller reports
its completion, and each event that is reported is on the event ring until
`ProcessEvent` has handled it.  Calls of the driver and steps of the controller
alternate in any order, and commands may be answered in any order.

The events are the ones the driver's own event ring shows (`EventRing.Shows`),
so nothing is assumed about how the controller writes them.  Of the device
contexts only the root hub port number matters here.  The controller writes it
when an Address Device command succeeds, a copy of the one in the input context,
and otherwise leaves it alone; all other fields are arbitrary.

What a controller may answer is the parameter `Answers`; `Allowed` restricts the
events that `ProcessEvent` is called for.  `Sound` is what holds of every such
system.
-/

namespace Mikanos.Xhci

open Relation Mikanos.Usb Controller

/-- An event on the event ring and the command it completes, if any. -/
structure Event where
  trb : Trb
  answers : Option Command

/-- `CommandCompletionEventTRB::bits.completion_code`. -/
def commandCompletionCode (trb : Trb) : BitVec 8 := trb.bits 2 24 8

/-- The completion code Success. -/
def successCode : BitVec 8 := 1

/-- The event `trb` is the completion of `cmd`: it points to it and names the slot
the command was for, if it was for one. -/
structure Completes (cmd : Command) (trb : Trb) : Prop where
  type : trb.trbType = commandCompletionEventType
  pointer : trb.pointer60 = cmd.position
  slot : cmd.trb.trbType ≠ enableSlotCommandType → eventSlotId trb = commandSlotId cmd.trb

/-- The driver, the commands without a completion event, the events the driver
has not handled, and the slot ids that Enable Slot commands returned, each with
the port of the command. -/
structure CommandSystem where
  ctl : Controller
  unanswered : List Command
  events : List Event
  returned : List (BitVec 8 × BitVec 8)

namespace CommandSystem

/-- Before the first command and event. -/
def start (c : Controller) : CommandSystem := ⟨c, [], [], []⟩

/-- The commands that are unanswered or whose completion event is not handled. -/
def inFlight (s : CommandSystem) : List Command :=
  s.unanswered ++ s.events.filterMap Event.answers

/-- The driver has returned with state `c'` and left these events. -/
def afterCall (s : CommandSystem) (c' : Controller) (events : List Event) : CommandSystem :=
  { s with
    ctl := c'
    unanswered := s.unanswered ++ c'.commands.drop s.ctl.commands.length
    events := events }

/-- The controller has written its memory. -/
def afterHardware (s : CommandSystem) (mem : Nat → Trb) (interrupter : InterrupterRegisterSet)
    (contexts : Nat → SlotContext) : CommandSystem :=
  { s with ctl := s.ctl.hardware mem interrupter contexts }

/-- The controller has reported an event. -/
def afterReport (s : CommandSystem) (event : Event) : CommandSystem :=
  { s with events := s.events ++ [event] }

/-- The command between `before` and `after` has been answered. -/
def afterAnswer (s : CommandSystem) (before after : List Command) (cmd : Command) (trb : Trb) :
    CommandSystem :=
  { s with
    unanswered := before ++ after
    events := s.events ++ [⟨trb, some cmd⟩]
    returned := s.returned ++
      if cmd.trb.trbType = enableSlotCommandType then [(cmd.port, eventSlotId trb)] else [] }

/-- The root hub port number the device in slot `i` has after `cmd` was answered
with `trb`. -/
def rootAfter (cmd : Command) (trb : Trb) (i : Nat) (dev : Device) : BitVec 8 :=
  if cmd.trb.trbType = addressDeviceCommandType ∧ commandCompletionCode trb = successCode ∧
      i = (commandSlotId cmd.trb).toNat then
    dev.inputContext.slotContext.rootHubPortNum
  else dev.slotContext.rootHubPortNum

/-- The root hub port numbers in the contexts are those of `root`. -/
def Roots (c : Controller) (contexts : Nat → SlotContext) (root : Nat → Device → BitVec 8) :
    Prop :=
  ∀ i dev, c.devmgr.devices i = some dev → (contexts i).rootHubPortNum = root i dev

/-- A step of the driver or the controller. -/
inductive Step (Answers : CommandSystem → Command → Trb → Prop)
    (Allowed : Surroundings → Controller → Trb → Prop) : CommandSystem → CommandSystem → Prop
  | configurePort {env : Surroundings} {s : CommandSystem} {c' : Controller} {port : BitVec 8}
      {err : Error} (hpos : 1 ≤ port.toNat) (hmax : port.toNat ≤ s.ctl.maxPorts.toNat)
      (hcall : configurePort env s.ctl port = .ok (err, c')) :
      Step Answers Allowed s (s.afterCall c' s.events)
  | processEvent {env : Surroundings} {s : CommandSystem} {c' : Controller} {err : Error}
      (hallowed : s.ctl.er.hasFront = .ok true →
        ∀ trb, s.ctl.er.front = .ok trb → Allowed env s.ctl trb)
      (hcall : processEvent env s.ctl = .ok (err, c')) :
      Step Answers Allowed s (s.afterCall c' s.events.tail)
  /-- The controller reports a transfer, a change of a port, or something else
  that is no completion of a command. -/
  | report {s : CommandSystem} {trb : Trb} {mem : Nat → Trb}
      {interrupter : InterrupterRegisterSet} {contexts : Nat → SlotContext}
      (hother : trb.trbType ≠ commandCompletionEventType)
      (hport : trb.trbType = portStatusChangeEventType →
        1 ≤ (eventPortId trb).toNat ∧ (eventPortId trb).toNat ≤ s.ctl.maxPorts.toNat)
      (hroots : Roots s.ctl contexts fun _ dev => dev.slotContext.rootHubPortNum)
      (hshows : (s.ctl.hardware mem interrupter contexts).er.Shows
        ((s.events ++ [Event.mk trb none]).map Event.trb)) :
      Step Answers Allowed s ((s.afterHardware mem interrupter contexts).afterReport ⟨trb, none⟩)
  /-- The controller answers one of the commands. -/
  | answer {s : CommandSystem} {before after : List Command} {cmd : Command} {trb : Trb}
      {mem : Nat → Trb} {interrupter : InterrupterRegisterSet} {contexts : Nat → SlotContext}
      (hunanswered : s.unanswered = before ++ cmd :: after)
      (hcompletes : Completes cmd trb) (hanswers : Answers s cmd trb)
      (hroots : Roots s.ctl contexts (rootAfter cmd trb))
      (hshows : (s.ctl.hardware mem interrupter contexts).er.Shows
        ((s.events ++ [Event.mk trb (some cmd)]).map Event.trb)) :
      Step Answers Allowed s
        ((s.afterHardware mem interrupter contexts).afterAnswer before after cmd trb)
  /-- The controller writes registers and contexts, but reports nothing. -/
  | background {s : CommandSystem} {mem : Nat → Trb} {interrupter : InterrupterRegisterSet}
      {contexts : Nat → SlotContext}
      (hroots : Roots s.ctl contexts fun _ dev => dev.slotContext.rootHubPortNum)
      (hshows : (s.ctl.hardware mem interrupter contexts).er.Shows (s.events.map Event.trb)) :
      Step Answers Allowed s (s.afterHardware mem interrupter contexts)

/-! ## Calls of the driver -/

@[simp] theorem trbType_portStatusChangeEvent (port : BitVec 8) :
    (portStatusChangeEvent port).trbType = portStatusChangeEventType := by
  rw [portStatusChangeEvent, Trb.trbType, Trb.bits_setBits_of_disjoint _ _ _ _ _ _ (by decide),
    Trb.bits_setBits_same _ _ _ _ (by decide)]

@[simp] theorem eventPortId_portStatusChangeEvent (port : BitVec 8) :
    eventPortId (portStatusChangeEvent port) = port := by
  rw [portStatusChangeEvent, eventPortId, Trb.bits_setBits_same _ _ _ _ (by decide)]

/-- A call of `ConfigurePort` comes to the same as an event of its port, so the invariants of
the handlers cover it. -/
theorem configurePort_outcome {env : Surroundings} {c c' : Controller} {port : BitVec 8}
    {err : Error} (h : configurePort env c port = .ok (err, c')) :
    EventOutcome env (portStatusChangeEvent port) c c' := by
  have htype := trbType_portStatusChangeEvent port
  have hport := eventPortId_portStatusChangeEvent port
  rcases configurePort_cases h with rfl | ⟨hphase, haddressing, rfl⟩ | ⟨hphase, haddressing, rfl⟩
  · refine .refused fun hcompletion => ?_
    rw [htype] at hcompletion
    exact absurd hcompletion (by decide)
  · rw [← hport] at hphase
    have hwait : EventOutcome env (portStatusChangeEvent port) c _ :=
      .wait htype hphase haddressing
    rw [hport] at hwait
    exact hwait
  · rw [← hport] at hphase
    have hreset : EventOutcome env (portStatusChangeEvent port) c _ :=
      .reset htype hphase haddressing
    rw [hport] at hreset
    exact hreset

/-- A driver that has called `ConfigurePort` or `ProcessEvent` has handled at most
one event: none, or a change of the port; or the first event on the ring. -/
inductive Called (Allowed : Surroundings → Controller → Trb → Prop) (s : CommandSystem) :
    CommandSystem → Prop
  | nothing : Called Allowed s s
  | port {env : Surroundings} {trb : Trb} {c' : Controller}
      (htype : trb.trbType = portStatusChangeEventType) (hport : eventPortId trb ≠ 0)
      (houtcome : EventOutcome env trb s.ctl c') : Called Allowed s (s.afterCall c' s.events)
  | event {env : Surroundings} {e : Event} {rest : List Event} {c' : Controller}
      (hevents : s.events = e :: rest) (hallowed : Allowed env s.ctl e.trb)
      (houtcome : EventOutcome env e.trb s.ctl c') :
      Called Allowed s (s.afterCall { c' with er := s.ctl.er.pop } rest)

/-- A call that changes nothing. -/
theorem afterCall_self (s : CommandSystem) : s.afterCall s.ctl s.events = s := by
  unfold afterCall
  rw [List.drop_length, List.append_nil]

section Soundness

variable {Answers : CommandSystem → Command → Trb → Prop}
variable {Allowed : Surroundings → Controller → Trb → Prop}
variable {s s' : CommandSystem}

/-- What a call of `ConfigurePort` does. -/
theorem called_of_configurePort {env : Surroundings} {c' : Controller} {port : BitVec 8}
    {err : Error} (hpos : 1 ≤ port.toNat)
    (hcall : configurePort env s.ctl port = .ok (err, c')) :
    Called Allowed s (s.afterCall c' s.events) := by
  have hport : eventPortId (portStatusChangeEvent port) ≠ 0 := by
    rw [eventPortId_portStatusChangeEvent]
    rintro rfl
    exact absurd hpos (by decide)
  exact .port (trbType_portStatusChangeEvent port) hport (configurePort_outcome hcall)

/-- What a call of `ProcessEvent` does to the system: the event at the front of the ring is
handled and taken away, or there was none. -/
theorem called_of_processEvent {env : Surroundings} {c' : Controller} {err : Error}
    (hshows : s.ctl.er.Shows (s.events.map Event.trb))
    (hallowed : s.ctl.er.hasFront = .ok true →
      ∀ trb, s.ctl.er.front = .ok trb → Allowed env s.ctl trb)
    (hcall : processEvent env s.ctl = .ok (err, c')) :
    Called Allowed s (s.afterCall c' s.events.tail) := by
  cases hevents : s.events with
  | nil =>
      rw [hevents] at hshows
      rcases processEvent_cases hcall with ⟨-, -, rfl⟩ | ⟨trb, c₁, hhas, -, -, -⟩
      · have hself := s.afterCall_self
        rw [hevents] at hself
        rw [List.tail_nil, hself]
        exact .nothing
      · exact absurd (hshows.symm.trans hhas) (by simp)
  | cons e rest =>
      rw [hevents] at hshows
      obtain ⟨hhas, hfront, -⟩ := hshows
      rcases processEvent_cases hcall with ⟨hnone, -, -⟩ | ⟨trb, c₁, -, hfront', hevent, rfl⟩
      · exact absurd (hhas.symm.trans hnone) (by simp)
      · obtain rfl := Except.ok.inj (hfront.symm.trans hfront')
        exact .event hevents (hallowed hhas _ hfront) (onEvent_outcome hevent)

/-! ## What holds of every system -/

/-- The invariant of the driver and the controller. -/
structure Sound (s : CommandSystem) : Prop where
  shows : s.ctl.er.Shows (s.events.map Event.trb)
  ports : ∀ e ∈ s.events, e.trb.trbType = portStatusChangeEventType → eventPortId e.trb ≠ 0
  answered : ∀ e ∈ s.events, e.trb.trbType = commandCompletionEventType →
    ∃ cmd, e.answers = some cmd
  completes : ∀ e ∈ s.events, ∀ cmd, e.answers = some cmd → Completes cmd e.trb
  pushed : ∀ cmd ∈ s.inFlight, cmd ∈ s.ctl.commands
  nodup : s.inFlight.Nodup
  exclusive : Turnstile.Exclusive ConfigPhase.IsAddressing s.ctl.turnstile
  zero : s.ctl.portConfigPhase 0 = .kNotConnected
  inOrder : s.ctl.InOrder
  maxSlots : s.ctl.devmgr.maxSlots = kDeviceSize

/-- The commands a call pushed are unanswered after it. -/
theorem unanswered_afterCall {c₁ : Controller} (er : EventRing) (events : List Event)
    {new : List Command} (hcommands : c₁.commands = s.ctl.commands ++ new) :
    (s.afterCall { c₁ with er := er } events).unanswered = s.unanswered ++ new := by
  show s.unanswered ++ c₁.commands.drop s.ctl.commands.length = _
  rw [hcommands, List.drop_left]

/-- The commands in flight after a call are those before, less the one whose
completion was handled, and the one the call pushed. -/
theorem inFlight_afterCall {c₁ : Controller} (er : EventRing) (events : List Event)
    {new : List Command} (hcommands : c₁.commands = s.ctl.commands ++ new) :
    (s.afterCall { c₁ with er := er } events).inFlight =
      s.unanswered ++ new ++ events.filterMap Event.answers := by
  rw [inFlight, unanswered_afterCall er events hcommands]
  rfl

/-- Handling an event keeps the system sound: commands that are pushed are in order on the ring,
and the events that are left are still the ones on the event ring. -/
theorem Sound.call (h : Sound s) {env : Surroundings} {trb : Trb} {c₁ : Controller}
    {events : List Event} {er : EventRing} (houtcome : EventOutcome env trb s.ctl c₁)
    (hnames : trb.trbType = portStatusChangeEventType → eventPortId trb ≠ 0)
    (hevents : events.Sublist s.events) (hshows : er.Shows (events.map Event.trb)) :
    Sound (s.afterCall { c₁ with er := er } events) := by
  have hpushes := outcome_pushes houtcome
  have hold : ∀ cmd ∈ events.filterMap Event.answers, cmd ∈ s.events.filterMap Event.answers :=
    fun cmd hcmd => (hevents.filterMap Event.answers).subset hcmd
  have hsublist : (s.unanswered ++ events.filterMap Event.answers).Sublist s.inFlight :=
    (List.Sublist.refl s.unanswered).append (hevents.filterMap Event.answers)
  constructor
  case shows => exact hshows
  case ports => exact fun e he => h.ports e (hevents.subset he)
  case answered => exact fun e he => h.answered e (hevents.subset he)
  case completes => exact fun e he => h.completes e (hevents.subset he)
  case pushed =>
    cases hpushes with
    | none hcr hcommands htypes =>
        intro cmd hcmd
        rw [inFlight_afterCall er events (hcommands.trans (List.append_nil _).symm),
          List.append_nil] at hcmd
        show cmd ∈ c₁.commands
        rw [hcommands]
        exact h.pushed cmd (hsublist.subset hcmd)
    | one port data position cr hpush hcr hcommands htype hothers =>
        intro cmd hcmd
        rw [inFlight_afterCall er events hcommands] at hcmd
        show cmd ∈ c₁.commands
        rw [hcommands]
        rcases List.mem_append.mp hcmd with hcmd | hcmd
        · rcases List.mem_append.mp hcmd with hcmd | hcmd
          · exact List.mem_append_left _ (h.pushed cmd (List.mem_append_left _ hcmd))
          · exact List.mem_append_right _ hcmd
        · exact List.mem_append_left _ (h.pushed cmd (List.mem_append_right _ (hold cmd hcmd)))
  case nodup =>
    have hnodup := hsublist.nodup h.nodup
    cases hpushes with
    | none hcr hcommands htypes =>
        rw [inFlight_afterCall er events (hcommands.trans (List.append_nil _).symm),
          List.append_nil]
        exact hnodup
    | one port data position cr hpush hcr hcommands htype hothers =>
        rw [inFlight_afterCall er events hcommands, List.append_assoc, List.singleton_append]
        refine (List.perm_middle.nodup_iff).mpr (List.nodup_cons.mpr ⟨fun hcmd => ?_, hnodup⟩)
        exact h.inOrder.fresh position htype (h.pushed _ (hsublist.subset hcmd))
  case exclusive => exact (outcome_moves hnames h.zero houtcome).exclusive h.exclusive
  case zero =>
    have hzero := outcome_zero hnames h.zero houtcome
    exact hzero
  case inOrder =>
    have hinOrder := h.inOrder.pushes hpushes
    exact ⟨hinOrder.ring, hinOrder.position, hinOrder.types⟩
  case maxSlots => exact (outcome_frame houtcome).2.2.trans h.maxSlots

/-- A call of the driver, `ConfigurePort` or `ProcessEvent`, keeps the system sound. -/
theorem Sound.called (h : Sound s) (hcalled : Called Allowed s s') : Sound s' := by
  cases hcalled with
  | nothing => exact h
  | @port env trb c' htype hport houtcome =>
      have her := (outcome_frame houtcome).1
      have hsound := h.call houtcome (fun _ => hport) (List.Sublist.refl _) h.shows
      rw [← her] at hsound
      exact hsound
  | @event env e rest c' hevents hallowed houtcome =>
      have hmem : e ∈ s.events := by
        rw [hevents]
        exact List.mem_cons_self
      have hshows := h.shows
      rw [hevents] at hshows
      refine h.call houtcome (h.ports e hmem) ?_ hshows.2.2
      rw [hevents]
      exact List.sublist_cons_self e rest

/-- The controller may write memory and device contexts at any time; as long as the event ring
shows the same events, the system stays sound. -/
theorem Sound.background (h : Sound s) {mem : Nat → Trb} {interrupter : InterrupterRegisterSet}
    {contexts : Nat → SlotContext}
    (hshows : (s.ctl.hardware mem interrupter contexts).er.Shows (s.events.map Event.trb)) :
    Sound (s.afterHardware mem interrupter contexts) where
  shows := hshows
  ports := h.ports
  answered := h.answered
  completes := h.completes
  pushed := h.pushed
  nodup := h.nodup
  exclusive := h.exclusive
  zero := h.zero
  inOrder := ⟨h.inOrder.ring, h.inOrder.position, h.inOrder.types⟩
  maxSlots := h.maxSlots

/-- An answered command is still in flight until its event is handled: it has only moved from
the unanswered ones to the events. -/
theorem inFlight_afterAnswer {before after : List Command} {cmd : Command} (trb : Trb)
    (hunanswered : s.unanswered = before ++ cmd :: after) :
    (s.afterAnswer before after cmd trb).inFlight.Perm s.inFlight := by
  have hevents : (s.afterAnswer before after cmd trb).events.filterMap Event.answers =
      s.events.filterMap Event.answers ++ [cmd] := by
    rw [afterAnswer, List.filterMap_append]
    rfl
  unfold inFlight
  rw [hevents, hunanswered]
  have hmove : ((before ++ after) ++ (s.events.filterMap Event.answers ++ [cmd])).Perm
      (cmd :: ((before ++ after) ++ s.events.filterMap Event.answers)) := by
    rw [← List.append_assoc]
    exact List.perm_append_singleton _ _
  refine hmove.trans ?_
  rw [List.append_assoc, List.append_assoc, List.cons_append]
  exact List.perm_middle.symm

/-- The commands that stay unanswered are the others, since no command is there twice. -/
theorem Sound.mem_rest (h : Sound s) {before after : List Command} {cmd : Command}
    (hunanswered : s.unanswered = before ++ cmd :: after) (cmd' : Command) :
    cmd' ∈ before ++ after ↔ cmd' ∈ s.unanswered ∧ cmd' ≠ cmd := by
  have hperm : s.unanswered.Perm (cmd :: (before ++ after)) := by
    rw [hunanswered]
    exact List.perm_middle
  have hnodup : s.unanswered.Nodup := (List.sublist_append_left _ _).nodup h.nodup
  have hnot := (List.nodup_cons.mp (hperm.nodup_iff.mp hnodup)).1
  rw [hperm.mem_iff, List.mem_cons]
  constructor
  · intro hcmd'
    refine ⟨Or.inr hcmd', ?_⟩
    intro heq
    rw [heq] at hcmd'
    exact hnot hcmd'
  · intro hcmd'
    exact hcmd'.1.resolve_left hcmd'.2

/-- One more event. -/
theorem forall_mem_snoc {P : Event → Prop} {events : List Event} {e : Event}
    (hold : ∀ e ∈ events, P e) (hlast : P e) : ∀ e' ∈ events ++ [e], P e' :=
  List.forall_mem_append.mpr ⟨hold, List.forall_mem_singleton.mpr hlast⟩

/-- The controller reports something that completes no command, at a port or for a transfer, and
the system stays sound. -/
theorem Sound.report (h : Sound s) {trb : Trb} {mem : Nat → Trb}
    {interrupter : InterrupterRegisterSet} {contexts : Nat → SlotContext}
    (hother : trb.trbType ≠ commandCompletionEventType)
    (hport : trb.trbType = portStatusChangeEventType → 1 ≤ (eventPortId trb).toNat)
    (hshows : (s.ctl.hardware mem interrupter contexts).er.Shows
      ((s.events ++ [Event.mk trb none]).map Event.trb)) :
    Sound ((s.afterHardware mem interrupter contexts).afterReport ⟨trb, none⟩) := by
  have hflight : ((s.afterHardware mem interrupter contexts).afterReport ⟨trb, none⟩).inFlight =
      s.inFlight := by
    unfold inFlight afterReport afterHardware
    rw [List.filterMap_append]
    simp
  constructor
  case shows => exact hshows
  case ports =>
    refine forall_mem_snoc h.ports fun htype hzero => ?_
    have hpos := hport htype
    rw [hzero] at hpos
    exact absurd hpos (by decide)
  case answered => exact forall_mem_snoc h.answered fun htype => absurd htype hother
  case completes => exact forall_mem_snoc h.completes fun cmd hcmd => by cases hcmd
  case pushed =>
    rw [hflight]
    exact h.pushed
  case nodup =>
    rw [hflight]
    exact h.nodup
  case exclusive => exact h.exclusive
  case zero => exact h.zero
  case inOrder => exact ⟨h.inOrder.ring, h.inOrder.position, h.inOrder.types⟩
  case maxSlots => exact h.maxSlots

/-- The controller answers a command, any of those it has not answered, and the system stays
sound with the event behind the others. -/
theorem Sound.answer (h : Sound s) {before after : List Command} {cmd : Command} {trb : Trb}
    {mem : Nat → Trb} {interrupter : InterrupterRegisterSet} {contexts : Nat → SlotContext}
    (hunanswered : s.unanswered = before ++ cmd :: after) (hcompletes : Completes cmd trb)
    (hshows : (s.ctl.hardware mem interrupter contexts).er.Shows
      ((s.events ++ [Event.mk trb (some cmd)]).map Event.trb)) :
    Sound ((s.afterHardware mem interrupter contexts).afterAnswer before after cmd trb) := by
  have hperm := inFlight_afterAnswer (s := s.afterHardware mem interrupter contexts) trb
    hunanswered
  constructor
  case shows => exact hshows
  case ports =>
    refine forall_mem_snoc h.ports fun htype => ?_
    rw [hcompletes.type] at htype
    exact absurd htype (by decide)
  case answered => exact forall_mem_snoc h.answered fun _ => ⟨cmd, rfl⟩
  case completes =>
    refine forall_mem_snoc h.completes fun cmd' hcmd' => ?_
    cases hcmd'
    exact hcompletes
  case pushed => exact fun cmd' hcmd' => h.pushed cmd' (hperm.mem_iff.mp hcmd')
  case nodup => exact hperm.nodup_iff.mpr h.nodup
  case exclusive => exact h.exclusive
  case zero => exact h.zero
  case inOrder => exact ⟨h.inOrder.ring, h.inOrder.position, h.inOrder.types⟩
  case maxSlots => exact h.maxSlots

/-- **Step lemma.** Whatever the driver or the controller does next keeps the system sound. -/
theorem Sound.step (h : Sound s) (hstep : Step Answers Allowed s s') : Sound s' := by
  cases hstep with
  | configurePort hpos _ hcall =>
      have hcalled : Called Allowed s _ := called_of_configurePort hpos hcall
      exact h.called hcalled
  | processEvent hallowed hcall => exact h.called (called_of_processEvent h.shows hallowed hcall)
  | report hother hport _ hshows => exact h.report hother (fun htype => (hport htype).1) hshows
  | answer hunanswered hcompletes _ _ hshows => exact h.answer hunanswered hcompletes hshows
  | background _ hshows => exact h.background hshows

/-- A ring as `Initialize` leaves it shows no event. -/
theorem shows_nil_of_fresh {er : EventRing} (h : er.Fresh 32) : er.Shows [] :=
  EventSystem.shows_of_run (by decide) (by decide) h .refl rfl

/-- The system after `Initialize` is sound: no command has been pushed and no event is on the
ring. -/
theorem sound_start {maxPorts : BitVec 8} {pool : Pool} {c : Controller}
    (h : Started (Controller.new maxPorts pool) c) : Sound (start c) where
  shows := shows_nil_of_fresh h.er
  ports := fun e he => by cases he
  answered := fun e he => by cases he
  completes := fun e he => by cases he
  pushed := fun cmd hcmd => by cases hcmd
  nodup := List.nodup_nil
  exclusive := by
    refine (exclusive_iff c).mpr ⟨fun hne => absurd h.addressingPort hne, fun _ p => ?_⟩
    rw [h.phases]
    show ¬ ConfigPhase.kNotConnected.IsAddressing
    decide
  zero := by
    rw [start, h.phases]
    rfl
  inOrder := h.inOrder rfl fun _ => rfl
  maxSlots := h.maxSlots

/-- **Run lemma.** -/
theorem Sound.run (h : Sound s) (hrun : ReflTransGen (Step Answers Allowed) s s') : Sound s' := by
  induction hrun with
  | refl => exact h
  | tail _ hstep ih => exact ih.step hstep

end Soundness

/-! ## Computed runs -/

instance (cmd : Command) (trb : Trb) : Decidable (Completes cmd trb) :=
  decidable_of_iff (trb.trbType = commandCompletionEventType ∧ trb.pointer60 = cmd.position ∧
      (cmd.trb.trbType ≠ enableSlotCommandType → eventSlotId trb = commandSlotId cmd.trb))
    ⟨fun h => ⟨h.1, h.2.1, h.2.2⟩, fun h => ⟨h.type, h.pointer, h.slot⟩⟩

instance decidableShows : ∀ (er : EventRing) (events : List Trb), Decidable (er.Shows events)
  | er, [] => inferInstanceAs (Decidable (er.hasFront = .ok false))
  | er, trb :: rest =>
      have := decidableShows er.pop rest
      inferInstanceAs (Decidable (er.hasFront = .ok true ∧ er.front = .ok trb ∧
        er.pop.Shows rest))

/-- The event ring's memory when `trb` is in the slot of the dequeue pointer. -/
def memoryWith (er : EventRing) (trb : Trb) : Nat → Trb :=
  Function.update er.mem ((trbIndex er.buf er.bufSize er.readDequeuePointer).getD 0) trb

/-- Slot contexts with the root hub port numbers of `root`. -/
def contextsWith (c : Controller) (root : Nat → Device → BitVec 8) (i : Nat) : SlotContext :=
  ((c.devmgr.devices i).map fun dev => dev.slotContext.setBits 1 16 (root i dev)).getD Dwords.zero

theorem roots_contextsWith (c : Controller) (root : Nat → Device → BitVec 8) :
    Roots c (contextsWith c root) root := by
  intro i dev hdev
  rw [contextsWith, hdev]
  exact Dwords.bits_setBits_same _ _ _ _ (by decide)

/-- The actions of a computed run.  An event is reported when the ring is empty. -/
inductive Action where
  | configurePort (env : Surroundings) (port : BitVec 8)
  | processEvent (env : Surroundings)
  | report (trb : Trb)
  /-- The `i`-th unanswered command is answered. -/
  | answer (i : Nat) (trb : Trb)

/-- The controller reports `trb`, if that is a step. -/
def reportEvent (s : CommandSystem) (trb : Trb) : CommandSystem :=
  let trb := trb.stamp s.ctl.er.cycleBit
  let s' := s.afterHardware (memoryWith s.ctl.er trb) s.ctl.er.interrupter
    (contextsWith s.ctl fun _ dev => dev.slotContext.rootHubPortNum)
  if trb.trbType ≠ commandCompletionEventType ∧
      (trb.trbType = portStatusChangeEventType →
        1 ≤ (eventPortId trb).toNat ∧ (eventPortId trb).toNat ≤ s.ctl.maxPorts.toNat) ∧
      s'.ctl.er.Shows ((s.events ++ [Event.mk trb none]).map Event.trb) then
    s'.afterReport ⟨trb, none⟩
  else s

theorem reportEvent_run {Answers : CommandSystem → Command → Trb → Prop}
    {Allowed : Surroundings → Controller → Trb → Prop} (s : CommandSystem) (trb : Trb) :
    ReflTransGen (Step Answers Allowed) s (reportEvent s trb) := by
  unfold reportEvent
  dsimp only
  split
  · rename_i h
    exact .single (.report h.1 h.2.1 (roots_contextsWith _ _) h.2.2)
  · exact .refl

/-- The driver calls `ConfigurePort`, if that is a step. -/
def callConfigurePort (s : CommandSystem) (env : Surroundings) (port : BitVec 8) :
    Except Fault CommandSystem :=
  if 1 ≤ port.toNat ∧ port.toNat ≤ s.ctl.maxPorts.toNat then
    (configurePort env s.ctl port).map fun result => s.afterCall result.2 s.events
  else .ok s

section Computing

variable (Answers : CommandSystem → Command → Trb → Prop)
  [∀ s cmd trb, Decidable (Answers s cmd trb)]

/-- The controller answers the `i`-th unanswered command with `trb`, if that is a
step. -/
def answerCommand (s : CommandSystem) (i : Nat) (trb : Trb) : CommandSystem :=
  match s.unanswered[i]? with
  | none => s
  | some cmd =>
      let trb := trb.stamp s.ctl.er.cycleBit
      let s' := s.afterHardware (memoryWith s.ctl.er trb) s.ctl.er.interrupter
        (contextsWith s.ctl (rootAfter cmd trb))
      if Completes cmd trb ∧ Answers s cmd trb ∧
          s'.ctl.er.Shows ((s.events ++ [Event.mk trb (some cmd)]).map Event.trb) then
        s'.afterAnswer (s.unanswered.take i) (s.unanswered.drop (i + 1)) cmd trb
      else s

/-- Answering a command, as an example computes it, is a run of the system: one step if the
answer is allowed and none otherwise. -/
theorem answerCommand_run {Allowed : Surroundings → Controller → Trb → Prop}
    (s : CommandSystem) (i : Nat) (trb : Trb) :
    ReflTransGen (Step Answers Allowed) s (answerCommand Answers s i trb) := by
  unfold answerCommand
  split
  · exact .refl
  · rename_i cmd hcmd
    dsimp only
    split
    · rename_i h
      have hsplit : s.unanswered = s.unanswered.take i ++ cmd :: s.unanswered.drop (i + 1) := by
        obtain ⟨hi, rfl⟩ := List.getElem?_eq_some_iff.mp hcmd
        rw [← List.drop_eq_getElem_cons hi, List.take_append_drop]
      exact .single (.answer hsplit h.1 h.2.1 (roots_contextsWith _ _) h.2.2)
    · exact .refl

variable (Allowed : Surroundings → Controller → Trb → Prop)
  [∀ env c trb, Decidable (Allowed env c trb)]

/-- The driver calls `ProcessEvent`, if that is a step. -/
def callProcessEvent (s : CommandSystem) (env : Surroundings) : Except Fault CommandSystem :=
  match s.ctl.er.front with
  | .error fault => .error fault
  | .ok trb =>
      if Allowed env s.ctl trb then
        (processEvent env s.ctl).map fun result => s.afterCall result.2 s.events.tail
      else .ok s

/-- The effect of one action. -/
def act (s : CommandSystem) : Action → Except Fault CommandSystem
  | .configurePort env port => callConfigurePort s env port
  | .processEvent env => callProcessEvent Allowed s env
  | .report trb => .ok (reportEvent s trb)
  | .answer i trb => .ok (answerCommand Answers s i trb)

/-- The effect of a list of actions. -/
def perform (s : CommandSystem) : List Action → Except Fault CommandSystem
  | [] => .ok s
  | a :: rest => (act Answers Allowed s a).bind fun s' => perform s' rest

variable {Answers Allowed} {s s' : CommandSystem}

/-- An action of a computed example is a step of the system, or nothing, so an example cannot
leave what the system allows. -/
theorem act_run {a : Action} (h : act Answers Allowed s a = .ok s') :
    ReflTransGen (Step Answers Allowed) s s' := by
  cases a with
  | configurePort env port =>
      rw [act, callConfigurePort] at h
      split at h
      · rename_i hport
        obtain ⟨⟨err, c'⟩, hcall, rfl⟩ := map_eq_ok h
        exact .single (.configurePort hport.1 hport.2 hcall)
      · cases h
        exact .refl
  | processEvent env =>
      rw [act, callProcessEvent] at h
      split at h
      · cases h
      · rename_i trb hfront
        split at h
        · rename_i hallowed
          obtain ⟨⟨err, c'⟩, hcall, rfl⟩ := map_eq_ok h
          refine .single (.processEvent (fun _ trb' htrb' => ?_) hcall)
          rw [hfront] at htrb'
          cases htrb'
          exact hallowed
        · cases h
          exact .refl
  | report trb =>
      cases h
      exact reportEvent_run s trb
  | answer i trb =>
      cases h
      exact answerCommand_run Answers s i trb

/-- **A computed run is a run**: actions performed one after the other lead to a state that the
system reaches, by induction over them. -/
theorem perform_run {actions : List Action} : ∀ {s s' : CommandSystem},
    perform Answers Allowed s actions = .ok s' → ReflTransGen (Step Answers Allowed) s s' := by
  induction actions with
  | nil =>
      intro s s' h
      cases h
      exact .refl
  | cons a rest ih =>
      intro s s' h
      obtain ⟨s₁, hact, h⟩ := bind_eq_ok.mp h
      exact (act_run hact).trans (ih h)

end Computing

end CommandSystem

end Mikanos.Xhci
