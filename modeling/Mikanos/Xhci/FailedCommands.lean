import Mikanos.Xhci.CommandSystem

/-!
# Commands that fail

The completion handler never looks at the completion code.  A port that is being
addressed waits for the completion of its Enable Slot command and then for that
of its Address Device command, and only these move it on; so as long as they do,
the port that holds `addressing_port` has a command in flight (`Alive`).

They fail to when the slot id that comes back is beyond the last slot, or when
the context of the addressed device does not name the port, as after an Address
Device command that failed.  `Succeeds` excludes just these two, on the state in
which the completion is handled.

To tell that the handler recognizes the completion, `Alive` counts the commands
pushed after the one that is awaited: they are Configure Endpoint commands, at
most one for each of the nine device slots that is ready for one, and one more
if the controller moves a slot to another port, which it can do only once.
-/

namespace Mikanos.Xhci

open Relation Mikanos.Usb Controller

/-- The port is waiting for a command that addresses its device. -/
def ConfigPhase.AwaitsAddress (phase : ConfigPhase) : Prop :=
  phase = .kEnablingSlot ∨ phase = .kAddressingDevice

namespace CommandSystem

/-- Any completion code, where a failed Enable Slot command returns slot id 0. -/
def AnyCode (_ : CommandSystem) (cmd : Command) (trb : Trb) : Prop :=
  cmd.trb.trbType = enableSlotCommandType → commandCompletionCode trb ≠ successCode →
    eventSlotId trb = 0

/-- The completion of a command the addressing port waits for is good for it: the
slot exists, and the device in it names the port. -/
def Succeeds (env : Surroundings) (c : Controller) (trb : Trb) : Prop :=
  trb.trbType = commandCompletionEventType →
    ((trbAt env c trb.pointer60).trbType = enableSlotCommandType →
      c.portConfigPhase c.addressingPort = .kEnablingSlot →
      (eventSlotId trb).toNat ≤ c.devmgr.maxSlots) ∧
    ((trbAt env c trb.pointer60).trbType = addressDeviceCommandType →
      c.portConfigPhase c.addressingPort = .kAddressingDevice →
      (c.devmgr.findBySlot (eventSlotId trb)).map (fun dev => dev.slotContext.rootHubPortNum) =
        some c.addressingPort)

/-- A port that waits for a command that addresses its device has one in flight. -/
def NotWedged (s : CommandSystem) : Prop :=
  s.ctl.addressingPort ≠ 0 →
    (s.ctl.portConfigPhase s.ctl.addressingPort).AwaitsAddress →
    ∃ cmd ∈ s.inFlight, cmd.port = s.ctl.addressingPort ∧
      (cmd.trb.trbType = enableSlotCommandType ∨ cmd.trb.trbType = addressDeviceCommandType)

/-- The slots whose device can have a Configure Endpoint command pushed for it. -/
def readySlots (c : Controller) : Finset Nat :=
  (Finset.range 9).filter fun i =>
    (c.devmgr.devices i).map (fun dev => c.portConfigPhase dev.slotContext.rootHubPortNum) =
      some .kInitializingDevice

/-- How many Address Device commands are unanswered. -/
def addressCount (commands : List Command) : Nat :=
  commands.countP fun cmd => cmd.trb.trbType = addressDeviceCommandType

/-- The command the addressing port waits for, the `k`-th one pushed, is in flight
and still on the ring. -/
structure Awaited (s : CommandSystem) (k : Nat) (cmd : Command) : Prop where
  pushed : s.ctl.commands[k]? = some cmd
  inFlight : cmd ∈ s.inFlight
  port : cmd.port = s.ctl.addressingPort
  type : (s.ctl.portConfigPhase s.ctl.addressingPort).awaitedType = some cmd.trb.trbType
  recent : s.ctl.commands.length + (readySlots s.ctl).card + addressCount s.unanswered ≤ k + 11

/-- The invariant. -/
structure Alive (s : CommandSystem) : Prop where
  sound : Sound s
  roots : ∀ i dev, s.ctl.devmgr.devices i = some dev → dev.slotContext.rootHubPortNum = 0 ∨
    (.kAddressingDevice ≤ s.ctl.portConfigPhase dev.slotContext.rootHubPortNum ∧
      ∀ cmd ∈ s.unanswered, cmd.trb.trbType = addressDeviceCommandType →
        cmd.port ≠ dev.slotContext.rootHubPortNum)
  inputs : ∀ i dev, s.ctl.devmgr.devices i = some dev → dev.inputPort = 0 ∨
    .kAddressingDevice ≤ s.ctl.portConfigPhase dev.inputPort
  addressing : ∀ cmd ∈ s.unanswered, cmd.trb.trbType = addressDeviceCommandType →
    cmd.port = s.ctl.addressingPort ∧
      s.ctl.portConfigPhase s.ctl.addressingPort = .kAddressingDevice
  awaited : (s.ctl.portConfigPhase s.ctl.addressingPort).AwaitsAddress →
    ∃ k cmd, s.Awaited k cmd

/-- What a call of the driver can mean for the port being addressed. -/
inductive AddressingMove (c c' : Controller) : Prop
  /-- Nothing; at most a Configure Endpoint command is pushed. -/
  | same (hport : c'.addressingPort = c.addressingPort)
      (hphase : c'.portConfigPhase c.addressingPort = c.portConfigPhase c.addressingPort)
      (new : List Command) (hcommands : c'.commands = c.commands ++ new)
      (htypes : ∀ cmd ∈ new, cmd.trb.trbType ≠ addressDeviceCommandType)
      (hready : new.length + (readySlots c').card ≤ (readySlots c).card)
  /-- Its Enable Slot or Address Device command is pushed. -/
  | next (hport : c'.addressingPort = c.addressingPort)
      (hphase : ¬ .kAddressingDevice ≤ c.portConfigPhase c.addressingPort)
      (position : Addr) (trb : Trb)
      (hcommands : c'.commands = c.commands ++ [⟨c.addressingPort, position, trb⟩])
      (htype : (c'.portConfigPhase c.addressingPort).awaitedType = some trb.trbType)
  /-- The port has no device left to address; a device names it, or there was no
  such port. -/
  | release (hcommands : c'.commands = c.commands)
      (hphase : ¬ (c'.portConfigPhase c'.addressingPort).AwaitsAddress)
      (hreleased : c.addressingPort = 0 ∨ ∃ i dev, c.devmgr.devices i = some dev ∧
        dev.slotContext.rootHubPortNum = c.addressingPort)

section Moves

variable {env : Surroundings} {trb : Trb} {c c' : Controller}

/-- A port that is in none of the phases of addressing is not the port being addressed. -/
theorem addressingPort_ne (hexclusive : Turnstile.Exclusive ConfigPhase.IsAddressing c.turnstile)
    (hzero : c.portConfigPhase 0 = .kNotConnected) {port : BitVec 8} {phase : ConfigPhase}
    (hphase : c.portConfigPhase port = phase) (hout : ¬ phase.IsAddressing)
    (hport : port = 0 → phase ≠ .kNotConnected) : c.addressingPort ≠ port := by
  intro heq
  subst heq
  by_cases haddressing : c.addressingPort = 0
  · apply hport haddressing
    rw [← hphase, haddressing, hzero]
  · have hin := (((exclusive_iff c).mp hexclusive).1 haddressing).1
    rw [hphase] at hin
    exact hout hin

/-- A port that is being addressed is the one `addressing_port` names. -/
theorem addressingPort_eq (hexclusive : Turnstile.Exclusive ConfigPhase.IsAddressing c.turnstile)
    {port : BitVec 8} (hin : (c.portConfigPhase port).IsAddressing) : c.addressingPort = port := by
  obtain ⟨hone, hnone⟩ := (exclusive_iff c).mp hexclusive
  by_cases haddressing : c.addressingPort = 0
  · exact absurd hin (hnone haddressing port)
  · by_contra hne
    exact (hone haddressing).2 port (Ne.symm hne) hin

/-- A slot that is ready after an event was ready before, if no port has just
begun to initialize its device. -/
theorem readySlots_subset (h : EventOutcome env trb c c')
    (hzero : c'.portConfigPhase 0 = .kNotConnected)
    (hphases : ∀ p, c'.portConfigPhase p = .kInitializingDevice →
      c.portConfigPhase p = .kInitializingDevice) : readySlots c' ⊆ readySlots c := by
  intro i hi
  obtain ⟨hrange, hready⟩ := Finset.mem_filter.mp hi
  obtain ⟨dev', hdev', hphase⟩ := Option.map_eq_some_iff.mp hready
  refine Finset.mem_filter.mpr ⟨hrange, ?_⟩
  rcases outcome_device h hdev' with ⟨dev, hdev, hsame, -⟩ | ⟨-, hroot, -⟩
  · rw [hsame.slotContext] at hphase
    rw [hdev, Option.map_some, hphases _ hphase]
  · rw [hroot, hzero] at hphase
    cases hphase

/-- A call that pushes nothing and makes no slot ready. -/
theorem addressingMove_of_subset (hport : c'.addressingPort = c.addressingPort)
    (hphase : c'.portConfigPhase c.addressingPort = c.portConfigPhase c.addressingPort)
    (hcommands : c'.commands = c.commands) (hsubset : readySlots c' ⊆ readySlots c) :
    AddressingMove c c' := by
  have hready := Finset.card_le_card hsubset
  exact .same hport hphase [] (hcommands.trans (List.append_nil _).symm)
    (fun cmd hcmd => absurd hcmd List.not_mem_nil) (by rw [List.length_nil]; omega)

/-- **Every handler is such a move**: it leaves the port being addressed as it is, pushes its
next command, or releases the turn. One case for each outcome. -/
theorem outcome_addressing (h : EventOutcome env trb c c')
    (hnames : NamesPort env c trb)
    (hexclusive : Turnstile.Exclusive ConfigPhase.IsAddressing c.turnstile)
    (hzero : c.portConfigPhase 0 = .kNotConnected) (hslots : c.devmgr.maxSlots = kDeviceSize) :
    AddressingMove c c' := by
  have hzero' := outcome_zero hnames hzero h
  have hupdate : ∀ {port phase}, phase ≠ .kInitializingDevice → ∀ p,
      Function.update c.portConfigPhase port phase p = .kInitializingDevice →
      c.portConfigPhase p = .kInitializingDevice := by
    intro port phase hphase p hp
    by_cases heq : p = port
    · subst heq
      rw [Function.update_self] at hp
      exact absurd hp hphase
    · rwa [Function.update_of_ne heq] at hp
  have hsubset := readySlots_subset h hzero'
  cases h with
  | refused => exact addressingMove_of_subset rfl rfl rfl (hsubset fun _ hp => hp)
  | noSlot => exact addressingMove_of_subset rfl rfl rfl (hsubset fun _ hp => hp)
  | @wait htype hphase haddressing =>
      have hne : c.addressingPort ≠ eventPortId trb :=
        addressingPort_ne hexclusive hzero hphase (by decide) fun hport =>
          absurd hport (hnames htype)
      exact addressingMove_of_subset rfl (Function.update_of_ne hne _ _) rfl
        (hsubset (hupdate (by decide)))
  | @reset htype hphase haddressing =>
      refine .release rfl ?_ (Or.inl haddressing)
      show ¬ (Function.update c.portConfigPhase (eventPortId trb) .kResettingPort
        (eventPortId trb)).AwaitsAddress
      rw [Function.update_self]
      rintro (hphase | hphase) <;> cases hphase
  | @enable position cr htype hphase hpush =>
      have heq : c.addressingPort = eventPortId trb :=
        addressingPort_eq hexclusive (by rw [hphase]; exact Or.inl rfl)
      rw [← heq] at hphase ⊢
      refine .next rfl (by rw [hphase]; decide) position _ rfl (awaitedType_update _ _ ?_)
      rw [trbType_enableSlotCommandTRB]
      rfl
  | @address dev₀ dev pool position cr htype hissuer hphase hslot hdev hsame hport hpush =>
      refine .next rfl (by rw [hphase]; decide) position _ rfl (awaitedType_update _ _ ?_)
      rw [trbType_addressDeviceCommandTRB]
      rfl
  | @addressed dev dev' c₁ htype hissuer hdev hport hphase hnext hkeeps =>
      have hreleased : c.addressingPort = 0 ∨ ∃ i dev, c.devmgr.devices i = some dev ∧
          dev.slotContext.rootHubPortNum = c.addressingPort :=
        Or.inr ⟨_, dev, (DeviceManager.findBySlot_eq_some hdev).2, hport⟩
      rcases hnext with rfl | ⟨port, hfirst, rfl⟩
      · refine .release rfl ?_ hreleased
        rintro (hawaits | hawaits)
        · exact absurd (hzero'.symm.trans hawaits) (by decide)
        · exact absurd (hzero'.symm.trans hawaits) (by decide)
      · have hwaiting := (firstWaiting_eq_some hfirst).1
        have hne : port ≠ c.addressingPort := by
          rintro rfl
          rw [hwaiting] at hphase
          cases hphase
        refine .release rfl ?_ hreleased
        show ¬ (Function.update (Function.update c.portConfigPhase port .kResettingPort)
          c.addressingPort .kInitializingDevice port).AwaitsAddress
        rw [Function.update_of_ne hne, Function.update_self]
        rintro (hawaits | hawaits) <;> cases hawaits
  | transfer => exact addressingMove_of_subset rfl rfl rfl (hsubset fun _ hp => hp)
  | @configure dev dev' pool position cr htype hdev hphase hsame hinput hpush =>
      obtain ⟨hle, hdevice⟩ := DeviceManager.findBySlot_eq_some hdev
      rw [← hsame.slotContext] at hphase
      have hne : c.addressingPort ≠ dev'.slotContext.rootHubPortNum :=
        addressingPort_ne hexclusive hzero hphase (by decide) fun _ => by decide
      refine .same rfl (Function.update_of_ne hne _ _) [_] rfl ?_ ?_
      · intro cmd hcmd
        rw [List.mem_singleton.mp hcmd, trbType_configureEndpointCommandTRB]
        decide
      · -- The slot of the event is no longer ready.
        have hsub := hsubset (hupdate (by decide))
        have hslot : (Device.eventSlotId trb).toNat ∈ readySlots c := by
          refine Finset.mem_filter.mpr ⟨Finset.mem_range.mpr ?_, ?_⟩
          · rw [hslots] at hle
            exact Nat.lt_succ_of_le hle
          · rw [hdevice, Option.map_some, ← hsame.slotContext, hphase]
        have hnot : (Device.eventSlotId trb).toNat ∉
            readySlots (c.afterConfigure (Device.eventSlotId trb) dev' pool position cr) := by
          intro hmem
          obtain ⟨-, hready⟩ := Finset.mem_filter.mp hmem
          have hdevice' : (c.afterConfigure (Device.eventSlotId trb) dev' pool position
              cr).devmgr.devices (Device.eventSlotId trb).toNat = some dev' :=
            DeviceManager.devices_setDevice_self _ _ _
          rw [hdevice', Option.map_some] at hready
          have hphase' := Option.some.inj hready
          rw [show (c.afterConfigure (Device.eventSlotId trb) dev' pool position cr).portConfigPhase
            dev'.slotContext.rootHubPortNum = .kConfiguringEndpoints from
              Function.update_self _ _ _] at hphase'
          cases hphase'
        have hlt := Finset.card_lt_card
          (Finset.ssubset_iff_subset_ne.mpr ⟨hsub, fun heq => hnot (heq ▸ hslot)⟩)
        rw [List.length_singleton]
        omega
  | @configured dev dev' htype hissuer hdev hphase hkeeps =>
      have hne : c.addressingPort ≠ dev.slotContext.rootHubPortNum :=
        addressingPort_ne hexclusive hzero hphase (by decide) fun _ => by decide
      exact addressingMove_of_subset rfl (Function.update_of_ne hne _ _) rfl
        (hsubset (hupdate (by decide)))

end Moves

section Preservation

variable {s s' : CommandSystem}

/-- A port that waits for Address Device is in that phase. -/
theorem eq_of_awaitedType_address {phase : ConfigPhase}
    (h : phase.awaitedType = some addressDeviceCommandType) : phase = .kAddressingDevice := by
  cases phase <;> first | rfl | (exact absurd h (by decide))

/-- The awaited command is an Enable Slot or Address Device command. -/
theorem Awaited.cases {k : Nat} {cmd : Command} (h : s.Awaited k cmd)
    (hawaits : (s.ctl.portConfigPhase s.ctl.addressingPort).AwaitsAddress) :
    (s.ctl.portConfigPhase s.ctl.addressingPort = .kEnablingSlot ∧
      cmd.trb.trbType = enableSlotCommandType) ∨
    (s.ctl.portConfigPhase s.ctl.addressingPort = .kAddressingDevice ∧
      cmd.trb.trbType = addressDeviceCommandType) := by
  have htype := h.type
  rcases hawaits with hphase | hphase
  · rw [hphase] at htype
    exact Or.inl ⟨hphase, (Option.some.inj htype).symm⟩
  · rw [hphase] at htype
    exact Or.inr ⟨hphase, (Option.some.inj htype).symm⟩

/-- **The completion of the awaited command moves the port on**, if it is good for it: a slot
that can be used, or an address for the device of the port. -/
theorem Alive.moves_on (h : Alive s) {env : Surroundings} {trb : Trb} {c' : Controller}
    (houtcome : EventOutcome env trb s.ctl c') {k : Nat} {cmd : Command}
    (hawaited : s.Awaited k cmd)
    (hawaits : (s.ctl.portConfigPhase s.ctl.addressingPort).AwaitsAddress)
    (hcompletes : Completes cmd trb) (hsucceeds : Succeeds env s.ctl trb) :
    c'.portConfigPhase s.ctl.addressingPort ≠ s.ctl.portConfigPhase s.ctl.addressingPort := by
  have hrecent := hawaited.recent
  have hissuer := h.sound.inOrder.issuer_type hawaited.pushed (by omega) env
  rw [← hcompletes.pointer] at hissuer
  obtain ⟨hslot, hdevice⟩ := hsucceeds hcompletes.type
  have hother : ∀ {type : BitVec 6}, trb.trbType = type → type ≠ commandCompletionEventType →
      False := fun htype hne => hne (htype.symm.trans hcompletes.type)
  rcases hawaited.cases hawaits with ⟨hphase, htype⟩ | ⟨hphase, htype⟩
  · rw [htype] at hissuer
    have hslot := hslot hissuer hphase
    cases houtcome with
    | refused hrefused => exact absurd (Or.inl ⟨hissuer, hphase⟩) (hrefused hcompletes.type)
    | wait htype' => exact (hother htype' (by decide)).elim
    | reset htype' => exact (hother htype' (by decide)).elim
    | enable htype' => exact (hother htype' (by decide)).elim
    | noSlot _ _ _ hslot' => omega
    | address =>
        show Function.update s.ctl.portConfigPhase _ ConfigPhase.kAddressingDevice _ ≠ _
        rw [Function.update_self, hphase]
        decide
    | addressed _ hissuer' => exact absurd (hissuer.symm.trans hissuer') (by decide)
    | transfer htype' => exact (hother htype' (by decide)).elim
    | configure htype' => exact (hother htype' (by decide)).elim
    | configured _ hissuer' => exact absurd (hissuer.symm.trans hissuer') (by decide)
  · rw [htype] at hissuer
    obtain ⟨dev, hdev, hport⟩ := Option.map_eq_some_iff.mp (hdevice hissuer hphase)
    cases houtcome with
    | refused hrefused =>
        exact absurd (Or.inr (Or.inl ⟨hissuer, dev, hdev, hport, hphase⟩))
          (hrefused hcompletes.type)
    | wait htype' => exact (hother htype' (by decide)).elim
    | reset htype' => exact (hother htype' (by decide)).elim
    | enable htype' => exact (hother htype' (by decide)).elim
    | noSlot _ hissuer' => exact absurd (hissuer.symm.trans hissuer') (by decide)
    | address _ hissuer' => exact absurd (hissuer.symm.trans hissuer') (by decide)
    | @addressed dev₁ dev' c₁ =>
        show Function.update c₁.portConfigPhase _ ConfigPhase.kInitializingDevice _ ≠ _
        rw [Function.update_self, hphase]
        decide
    | transfer htype' => exact (hother htype' (by decide)).elim
    | configure htype' => exact (hother htype' (by decide)).elim
    | configured _ hissuer' => exact absurd (hissuer.symm.trans hissuer') (by decide)

/-- No Address Device command is unanswered while the port is in an earlier phase. -/
theorem Alive.addressCount_eq_zero (h : Alive s)
    (hphase : s.ctl.portConfigPhase s.ctl.addressingPort ≠ .kAddressingDevice) :
    addressCount s.unanswered = 0 := by
  rw [addressCount, List.countP_eq_zero]
  intro cmd hcmd htype
  exact hphase (h.addressing cmd hcmd (of_decide_eq_true htype)).2

/-- A new Address Device command is for a port that no device has named, so it is not a second
one for an addressed device. -/
theorem AddressingMove.address_new {c' : Controller} (hmove : AddressingMove s.ctl c')
    (er : EventRing) (events : List Event) {cmd : Command}
    (hcmd : cmd ∈ (s.afterCall { c' with er := er } events).unanswered)
    (htype : cmd.trb.trbType = addressDeviceCommandType) :
    cmd ∈ s.unanswered ∨ (cmd.port = s.ctl.addressingPort ∧
      ¬ .kAddressingDevice ≤ s.ctl.portConfigPhase s.ctl.addressingPort) := by
  cases hmove with
  | same hport hphase new hcommands htypes hready =>
      rw [unanswered_afterCall er events hcommands] at hcmd
      rcases List.mem_append.mp hcmd with hcmd | hcmd
      · exact Or.inl hcmd
      · exact absurd htype (htypes cmd hcmd)
  | next hport hphase position data hcommands htype' =>
      rw [unanswered_afterCall er events hcommands] at hcmd
      rcases List.mem_append.mp hcmd with hcmd | hcmd
      · exact Or.inl hcmd
      · rw [List.mem_singleton.mp hcmd]
        exact Or.inr ⟨rfl, hphase⟩
  | release hcommands hphase hreleased =>
      rw [unanswered_afterCall er events (hcommands.trans (List.append_nil _).symm),
        List.append_nil] at hcmd
      exact Or.inl hcmd

/-- After a call of the driver, an unanswered Address Device command is still for the port being
addressed. -/
theorem Alive.call_addressing (h : Alive s) {c' : Controller} (hmove : AddressingMove s.ctl c')
    (er : EventRing) (events : List Event) {cmd : Command}
    (hcmd : cmd ∈ (s.afterCall { c' with er := er } events).unanswered)
    (htype : cmd.trb.trbType = addressDeviceCommandType) :
    cmd.port = c'.addressingPort ∧
      c'.portConfigPhase c'.addressingPort = .kAddressingDevice := by
  cases hmove with
  | same hport hphase new hcommands htypes hready =>
      rw [unanswered_afterCall er events hcommands] at hcmd
      rcases List.mem_append.mp hcmd with hcmd | hcmd
      · obtain ⟨hcmdPort, hcmdPhase⟩ := h.addressing cmd hcmd htype
        rw [hport, hphase]
        exact ⟨hcmdPort, hcmdPhase⟩
      · exact absurd htype (htypes cmd hcmd)
  | next hport hphase position data hcommands htype' =>
      rw [unanswered_afterCall er events hcommands] at hcmd
      rcases List.mem_append.mp hcmd with hcmd | hcmd
      · rw [(h.addressing cmd hcmd htype).2] at hphase
        exact absurd (le_refl _) hphase
      · rw [List.mem_singleton.mp hcmd] at htype ⊢
        rw [show data.trbType = addressDeviceCommandType from htype] at htype'
        rw [hport]
        exact ⟨rfl, eq_of_awaitedType_address htype'⟩
  | release hcommands hphase hreleased =>
      rw [unanswered_afterCall er events (hcommands.trans (List.append_nil _).symm),
        List.append_nil] at hcmd
      obtain ⟨hcmdPort, hcmdPhase⟩ := h.addressing cmd hcmd htype
      have hnonzero : s.ctl.addressingPort ≠ 0 := by
        intro hzero
        rw [hzero, h.sound.zero] at hcmdPhase
        cases hcmdPhase
      rcases hreleased with hzero | ⟨i, dev, hdev, hroot⟩
      · exact absurd hzero hnonzero
      · rcases h.roots i dev hdev with hzero | ⟨-, hothers⟩
        · exact absurd (hroot.symm.trans hzero) hnonzero
        · exact absurd (hcmdPort.trans hroot.symm) (hothers cmd hcmd htype)

/-- A call that leaves the port where it is leaves its awaited command where it was, among the
unanswered ones or the events. -/
theorem Awaited.call {k : Nat} {cmd : Command} (h : s.Awaited k cmd) {c' : Controller}
    {new : List Command} (er : EventRing) (events : List Event)
    (hport : c'.addressingPort = s.ctl.addressingPort)
    (hphase : c'.portConfigPhase s.ctl.addressingPort = s.ctl.portConfigPhase s.ctl.addressingPort)
    (hcommands : c'.commands = s.ctl.commands ++ new)
    (htypes : ∀ cmd ∈ new, cmd.trb.trbType ≠ addressDeviceCommandType)
    (hready : new.length + (readySlots c').card ≤ (readySlots s.ctl).card)
    (hmem : cmd ∈ s.unanswered ++ events.filterMap Event.answers) :
    (s.afterCall { c' with er := er } events).Awaited k cmd := by
  have hk := (List.getElem?_eq_some_iff.mp h.pushed).1
  have hcount : addressCount new = 0 := by
    rw [addressCount, List.countP_eq_zero]
    exact fun cmd hcmd htype => htypes cmd hcmd (of_decide_eq_true htype)
  constructor
  case pushed =>
    show c'.commands[k]? = some cmd
    rw [hcommands, List.getElem?_append_left hk]
    exact h.pushed
  case inFlight =>
    rw [inFlight_afterCall er events hcommands]
    rcases List.mem_append.mp hmem with hmem | hmem
    · exact List.mem_append_left _ (List.mem_append_left _ hmem)
    · exact List.mem_append_right _ hmem
  case port => exact h.port.trans hport.symm
  case type =>
    show (c'.portConfigPhase c'.addressingPort).awaitedType = _
    rw [hport, hphase]
    exact h.type
  case recent =>
    have hrecent := h.recent
    have hready' : readySlots (s.afterCall { c' with er := er } events).ctl =
        readySlots c' := rfl
    rw [unanswered_afterCall er events hcommands, addressCount, List.countP_append,
      ← addressCount, ← addressCount, hcount, hready']
    show c'.commands.length + _ + _ ≤ _
    rw [hcommands, List.length_append]
    omega

/-- A call that pushes the command the port waits for next leaves the port waiting for that
command. -/
theorem Alive.call_next (h : Alive s) {c' : Controller} (er : EventRing) (events : List Event)
    {position : Addr} {data : Trb} (hport : c'.addressingPort = s.ctl.addressingPort)
    (hphase : ¬ .kAddressingDevice ≤ s.ctl.portConfigPhase s.ctl.addressingPort)
    (hcommands : c'.commands = s.ctl.commands ++ [⟨s.ctl.addressingPort, position, data⟩])
    (htype : (c'.portConfigPhase s.ctl.addressingPort).awaitedType = some data.trbType) :
    (s.afterCall { c' with er := er } events).Awaited s.ctl.commands.length
      ⟨s.ctl.addressingPort, position, data⟩ := by
  constructor
  case pushed =>
    show c'.commands[s.ctl.commands.length]? = _
    rw [hcommands, List.getElem?_append_right (Nat.le_refl _), Nat.sub_self]
    rfl
  case inFlight =>
    rw [inFlight_afterCall er events hcommands]
    exact List.mem_append_left _ (List.mem_append_right _ (List.mem_singleton_self _))
  case port => exact hport.symm
  case type =>
    show (c'.portConfigPhase c'.addressingPort).awaitedType = _
    rw [hport]
    exact htype
  case recent =>
    have hzero := h.addressCount_eq_zero fun heq => hphase (le_of_eq heq.symm)
    have hready' : readySlots (s.afterCall { c' with er := er } events).ctl =
        readySlots c' := rfl
    have hcard : (readySlots c').card ≤ 9 := (Finset.card_filter_le _ _).trans (by simp)
    have hone := List.countP_le_length (p := fun cmd : Command =>
      decide (cmd.trb.trbType = addressDeviceCommandType))
      (l := [⟨s.ctl.addressingPort, position, data⟩])
    rw [List.length_singleton] at hone
    rw [unanswered_afterCall er events hcommands, addressCount, List.countP_append,
      ← addressCount, hzero, hready']
    show c'.commands.length + _ + _ ≤ _
    rw [hcommands, List.length_append, List.length_singleton]
    omega

/-- A call of the driver keeps the awaited command in flight, or moves the port on to its next
one. -/
theorem Alive.call (h : Alive s) {env : Surroundings} {trb : Trb} {c' : Controller}
    {er : EventRing} {events : List Event} (houtcome : EventOutcome env trb s.ctl c')
    (hnames : NamesPort env s.ctl trb)
    (hsound : Sound (s.afterCall { c' with er := er } events))
    (hkept : ∀ k cmd, (s.ctl.portConfigPhase s.ctl.addressingPort).AwaitsAddress →
      s.Awaited k cmd → cmd ∈ s.unanswered ++ events.filterMap Event.answers ∨
        c'.portConfigPhase s.ctl.addressingPort ≠ s.ctl.portConfigPhase s.ctl.addressingPort) :
    Alive (s.afterCall { c' with er := er } events) := by
  have hmono : ∀ p, s.ctl.portConfigPhase p ≤ c'.portConfigPhase p :=
    (outcome_moves hnames h.sound.zero houtcome).stage_le
  have hmove := outcome_addressing houtcome hnames h.sound.exclusive h.sound.zero h.sound.maxSlots
  constructor
  case sound => exact hsound
  case roots =>
    intro i dev' hdev'
    rcases outcome_device houtcome hdev' with ⟨dev, hdev, hsame, -⟩ | ⟨-, hroot, -⟩
    · rw [hsame.slotContext]
      rcases h.roots i dev hdev with hroot | ⟨hphase, hothers⟩
      · exact Or.inl hroot
      · refine Or.inr ⟨le_trans hphase (hmono _), fun cmd hcmd htype => ?_⟩
        rcases hmove.address_new er events hcmd htype with hcmd | ⟨hport, hearly⟩
        · exact hothers cmd hcmd htype
        · intro heq
          rw [← hport, heq] at hearly
          exact hearly hphase
    · exact Or.inl hroot
  case inputs =>
    intro i dev' hdev'
    rcases outcome_device houtcome hdev' with ⟨dev, hdev, hsame, hinput⟩ | ⟨-, -, hinput, hphase⟩
    · rcases hinput with hinput | ⟨-, hinput⟩ | ⟨hinput, hphase⟩
      · rw [hinput]
        exact (h.inputs i dev hdev).imp_right fun hphase => le_trans hphase (hmono _)
      · rw [hinput]
        exact (h.roots i dev hdev).imp_right fun hroot => le_trans hroot.1 (hmono _)
      · rw [hinput]
        exact Or.inr (le_of_eq hphase.symm)
    · rw [hinput]
      exact Or.inr (le_of_eq hphase.symm)
  case addressing => exact fun cmd hcmd htype => h.call_addressing hmove er events hcmd htype
  case awaited =>
    intro hawaits'
    change (c'.portConfigPhase c'.addressingPort).AwaitsAddress at hawaits'
    cases hmove with
    | same hport hphase new hcommands htypes hready =>
        rw [hport, hphase] at hawaits'
        obtain ⟨k, cmd, hawaited⟩ := h.awaited hawaits'
        rcases hkept k cmd hawaits' hawaited with hmem | hmoved
        · exact ⟨k, cmd, hawaited.call er events hport hphase hcommands htypes hready hmem⟩
        · exact absurd hphase hmoved
    | next hport hphase position data hcommands htype =>
        exact ⟨_, _, h.call_next er events hport hphase hcommands htype⟩
    | release hcommands hphase hreleased => exact absurd hawaits' hphase

/-- A call of the driver, `ConfigurePort` or `ProcessEvent`, keeps the port being addressed
alive. -/
theorem Alive.called (h : Alive s) (hcalled : Called Succeeds s s') : Alive s' := by
  have hsound := h.sound.called hcalled
  cases hcalled with
  | nothing => exact h
  | @port env trb c' htype hport houtcome =>
      have her := (outcome_frame houtcome).1
      have hself : s.afterCall c' s.events = s.afterCall { c' with er := s.ctl.er } s.events := by
        rw [← her]
      rw [hself] at hsound ⊢
      exact h.call houtcome (fun _ => hport) hsound fun k cmd _ hawaited =>
        Or.inl hawaited.inFlight
  | @event env e rest c' hevents hallowed houtcome =>
      have hmem : e ∈ s.events := by
        rw [hevents]
        exact List.mem_cons_self
      refine h.call houtcome (h.sound.ports e hmem) hsound fun k cmd hawaits hawaited => ?_
      have hflight := hawaited.inFlight
      rw [inFlight, hevents, List.filterMap_cons] at hflight
      cases hanswers : e.answers with
      | none =>
          rw [hanswers] at hflight
          exact Or.inl hflight
      | some answered =>
          rw [hanswers] at hflight
          rcases List.mem_append.mp hflight with hflight | hflight
          · exact Or.inl (List.mem_append_left _ hflight)
          · rcases List.mem_cons.mp hflight with rfl | hflight
            · -- This is the event that completes the awaited command.
              have hcompletes := h.sound.completes e hmem cmd hanswers
              exact Or.inr (h.moves_on houtcome hawaited hawaits hcompletes hallowed)
            · exact Or.inl (List.mem_append_right _ hflight)

/-- A device after the controller wrote its memory. -/
theorem devices_hardware {c : Controller} {mem : Nat → Trb} {interrupter : InterrupterRegisterSet}
    {contexts : Nat → SlotContext} {i : Nat} {dev' : Device}
    (h : (c.hardware mem interrupter contexts).devmgr.devices i = some dev') :
    ∃ dev, c.devmgr.devices i = some dev ∧ dev'.inputPort = dev.inputPort ∧
      dev'.slotContext = contexts i := by
  obtain ⟨dev, hdev, rfl⟩ := Option.map_eq_some_iff.mp h
  exact ⟨dev, hdev, rfl, rfl⟩

/-- A slot that is ready after the controller has written its contexts was ready before, if the
devices keep their ports. -/
theorem mem_readySlots_of_hardware {c : Controller} {mem : Nat → Trb}
    {interrupter : InterrupterRegisterSet} {contexts : Nat → SlotContext} {i : Nat}
    (hroot : ∀ dev, c.devmgr.devices i = some dev →
      (contexts i).rootHubPortNum = dev.slotContext.rootHubPortNum)
    (h : i ∈ readySlots (c.hardware mem interrupter contexts)) : i ∈ readySlots c := by
  obtain ⟨hrange, hready⟩ := Finset.mem_filter.mp h
  obtain ⟨dev', hdev', hphase⟩ := Option.map_eq_some_iff.mp hready
  obtain ⟨dev, hdev, -, hcontext⟩ := devices_hardware hdev'
  refine Finset.mem_filter.mpr ⟨hrange, ?_⟩
  rw [hcontext, hroot dev hdev] at hphase
  rw [hdev, Option.map_some]
  exact congrArg some hphase

/-- The controller writes memory, and may answer a command.  What it writes to a
device context that does not name the port the context named before is a copy of
the input context, and then no Address Device command remains unanswered. -/
theorem Alive.written (h : Alive s) {mem : Nat → Trb} {interrupter : InterrupterRegisterSet}
    {contexts : Nat → SlotContext} (hsound : Sound s')
    (hctl : s'.ctl = s.ctl.hardware mem interrupter contexts)
    (hunanswered : ∀ cmd ∈ s'.unanswered, cmd ∈ s.unanswered)
    (hflight : ∀ cmd ∈ s.inFlight, cmd ∈ s'.inFlight)
    (hroots : ∀ i dev, s.ctl.devmgr.devices i = some dev →
      (contexts i).rootHubPortNum = dev.slotContext.rootHubPortNum ∨
        ((contexts i).rootHubPortNum = dev.inputPort ∧
          ∀ cmd ∈ s'.unanswered, cmd.trb.trbType ≠ addressDeviceCommandType))
    (hcount : (readySlots s'.ctl).card + addressCount s'.unanswered ≤
      (readySlots s.ctl).card + addressCount s.unanswered) : Alive s' := by
  have hphases : s'.ctl.portConfigPhase = s.ctl.portConfigPhase := by
    rw [hctl]
    rfl
  have haddressing : s'.ctl.addressingPort = s.ctl.addressingPort := by
    rw [hctl]
    rfl
  have hcommands : s'.ctl.commands = s.ctl.commands := by
    rw [hctl]
    rfl
  constructor
  case sound => exact hsound
  case roots =>
    intro i dev' hdev'
    rw [hctl] at hdev'
    obtain ⟨dev, hdev, -, hcontext⟩ := devices_hardware hdev'
    rw [hcontext, hphases]
    rcases hroots i dev hdev with hroot | ⟨hroot, hnone⟩
    · rw [hroot]
      refine (h.roots i dev hdev).imp_right fun ⟨hphase, hothers⟩ => ⟨hphase, ?_⟩
      exact fun cmd hcmd => hothers cmd (hunanswered cmd hcmd)
    · rw [hroot]
      refine (h.inputs i dev hdev).imp_right fun hphase => ⟨hphase, ?_⟩
      exact fun cmd hcmd htype => absurd htype (hnone cmd hcmd)
  case inputs =>
    intro i dev' hdev'
    rw [hctl] at hdev'
    obtain ⟨dev, hdev, hinput, -⟩ := devices_hardware hdev'
    rw [hinput, hphases]
    exact h.inputs i dev hdev
  case addressing =>
    intro cmd hcmd htype
    rw [haddressing, hphases]
    exact h.addressing cmd (hunanswered cmd hcmd) htype
  case awaited =>
    intro hawaits
    rw [haddressing, hphases] at hawaits
    obtain ⟨k, cmd, hawaited⟩ := h.awaited hawaits
    have hrecent := hawaited.recent
    refine ⟨k, cmd, ?_, hflight cmd hawaited.inFlight, ?_, ?_, ?_⟩
    · rw [hcommands]
      exact hawaited.pushed
    · rw [haddressing]
      exact hawaited.port
    · rw [haddressing, hphases]
      exact hawaited.type
    · rw [hcommands]
      omega

/-- There is one unanswered Address Device command at most, since one port is being addressed.
-/
theorem Alive.address_unique (h : Alive s) {before after : List Command} {cmd : Command}
    (hunanswered : s.unanswered = before ++ cmd :: after)
    (htype : cmd.trb.trbType = addressDeviceCommandType) :
    ∀ cmd' ∈ before ++ after, cmd'.trb.trbType ≠ addressDeviceCommandType := by
  intro cmd' hcmd' htype'
  obtain ⟨hmem', hne⟩ := (h.sound.mem_rest hunanswered cmd').mp hcmd'
  have hmem : cmd ∈ s.unanswered := by
    rw [hunanswered]
    exact List.mem_append_right _ List.mem_cons_self
  apply hne
  apply h.sound.inOrder.unique
  · exact h.sound.pushed _ (List.mem_append_left _ hmem')
  · exact h.sound.pushed _ (List.mem_append_left _ hmem)
  · exact (h.addressing cmd' hmem' htype').1.trans (h.addressing cmd hmem htype).1.symm
  · exact htype'.trans htype.symm

/-- The controller answers a command, with any code, and the awaited command is still unanswered
or among the events. -/
theorem Alive.answer (h : Alive s) {before after : List Command} {cmd : Command} {trb : Trb}
    {mem : Nat → Trb} {interrupter : InterrupterRegisterSet} {contexts : Nat → SlotContext}
    (hunanswered : s.unanswered = before ++ cmd :: after)
    (hroots : Roots s.ctl contexts (rootAfter cmd trb))
    (hsound : Sound ((s.afterHardware mem interrupter contexts).afterAnswer before after cmd trb)) :
    Alive ((s.afterHardware mem interrupter contexts).afterAnswer before after cmd trb) := by
  have hperm := inFlight_afterAnswer (s := s.afterHardware mem interrupter contexts) trb
    hunanswered
  have hsub : ∀ cmd' ∈ before ++ after, cmd' ∈ s.unanswered := by
    intro cmd' hcmd'
    rw [hunanswered]
    exact (List.Sublist.refl before).append (List.sublist_cons_self cmd after) |>.subset hcmd'
  have hcounts : addressCount s.unanswered = addressCount (before ++ after) +
      if cmd.trb.trbType = addressDeviceCommandType then 1 else 0 := by
    rw [hunanswered]
    unfold addressCount
    rw [List.countP_append, List.countP_cons, List.countP_append]
    simp only [decide_eq_true_eq]
    omega
  refine h.written hsound rfl hsub (fun cmd' hcmd' => hperm.mem_iff.mpr hcmd') ?_ ?_
  · intro i dev hdev
    rw [hroots i dev hdev, rootAfter]
    split
    · rename_i hcopies
      exact Or.inr ⟨rfl, h.address_unique hunanswered hcopies.1⟩
    · exact Or.inl rfl
  · show (readySlots (s.ctl.hardware mem interrupter contexts)).card +
      addressCount (before ++ after) ≤ _
    by_cases htype : cmd.trb.trbType = addressDeviceCommandType
    · -- The slot of the command may have become ready.
      have hsubset : readySlots (s.ctl.hardware mem interrupter contexts) ⊆
          insert (commandSlotId cmd.trb).toNat (readySlots s.ctl) := by
        intro i hi
        by_cases hslot : i = (commandSlotId cmd.trb).toNat
        · rw [hslot]
          exact Finset.mem_insert_self _ _
        · refine Finset.mem_insert_of_mem (mem_readySlots_of_hardware (fun dev hdev => ?_) hi)
          rw [hroots i dev hdev, rootAfter, if_neg fun hcopies => hslot hcopies.2.2]
      have hcard := (Finset.card_le_card hsubset).trans (Finset.card_insert_le _ _)
      rw [hcounts, if_pos htype]
      omega
    · have hsubset : readySlots (s.ctl.hardware mem interrupter contexts) ⊆ readySlots s.ctl := by
        intro i hi
        refine mem_readySlots_of_hardware (fun dev hdev => ?_) hi
        rw [hroots i dev hdev, rootAfter, if_neg fun hcopies => htype hcopies.1]
      have hcard := Finset.card_le_card hsubset
      rw [hcounts, if_neg htype]
      omega

/-- The controller writes memory and may report something that completes no command; the awaited
command stays where it is. -/
theorem Alive.reported (h : Alive s) {mem : Nat → Trb} {interrupter : InterrupterRegisterSet}
    {contexts : Nat → SlotContext} (hsound : Sound s')
    (hctl : s'.ctl = s.ctl.hardware mem interrupter contexts)
    (hunanswered : s'.unanswered = s.unanswered)
    (hanswers : s'.events.filterMap Event.answers = s.events.filterMap Event.answers)
    (hroots : Roots s.ctl contexts fun _ dev => dev.slotContext.rootHubPortNum) : Alive s' := by
  have hflight : s'.inFlight = s.inFlight := by
    rw [inFlight, hunanswered, hanswers, inFlight]
  refine h.written hsound hctl (fun cmd hcmd => hunanswered ▸ hcmd)
    (fun cmd hcmd => hflight ▸ hcmd) (fun i dev hdev => Or.inl (hroots i dev hdev)) ?_
  have hsubset : readySlots s'.ctl ⊆ readySlots s.ctl := by
    intro i hi
    rw [hctl] at hi
    exact mem_readySlots_of_hardware (fun dev hdev => hroots i dev hdev) hi
  have hcard := Finset.card_le_card hsubset
  rw [hunanswered]
  omega

/-- **Step lemma.** A step of the driver whose completions are good for their ports, or of a
controller with any code, keeps the port alive. -/
theorem Alive.step (h : Alive s) (hstep : Step AnyCode Succeeds s s') : Alive s' := by
  have hsound := h.sound.step hstep
  cases hstep with
  | configurePort hpos _ hcall =>
      have hcalled : Called Succeeds s _ := called_of_configurePort hpos hcall
      exact h.called hcalled
  | processEvent hallowed hcall =>
      exact h.called (called_of_processEvent h.sound.shows hallowed hcall)
  | @report _ trb mem interrupter contexts _ _ hroots _ =>
      refine h.reported hsound rfl rfl ?_ hroots
      show (s.events ++ [Event.mk trb none]).filterMap Event.answers = _
      rw [List.filterMap_append]
      exact List.append_nil _
  | answer hunanswered _ _ hroots _ => exact h.answer hunanswered hroots hsound
  | background hroots _ => exact h.reported hsound rfl rfl rfl hroots

/-- **Run lemma.** -/
theorem Alive.run (h : Alive s) (hrun : ReflTransGen (Step AnyCode Succeeds) s s') :
    Alive s' := by
  induction hrun with
  | refl => exact h
  | tail _ hstep ih => exact ih.step hstep

/-- The system after `Initialize` is alive: no port is being addressed, so nothing is awaited.
-/
theorem alive_start {maxPorts : BitVec 8} {pool : Pool} {c : Controller}
    (h : Started (Controller.new maxPorts pool) c) : Alive (start c) where
  sound := sound_start h
  roots := fun i dev hdev => by
    rw [start, h.devices] at hdev
    cases hdev
  inputs := fun i dev hdev => by
    rw [start, h.devices] at hdev
    cases hdev
  addressing := fun cmd hcmd => by cases hcmd
  awaited := by
    rw [start, h.phases]
    rintro (hphase | hphase) <;> cases hphase

/-- The awaited command is in flight. -/
theorem Alive.notWedged (h : Alive s) : NotWedged s := by
  intro _ hawaits
  obtain ⟨k, cmd, hawaited⟩ := h.awaited hawaits
  exact ⟨cmd, hawaited.inFlight, hawaited.port,
    (hawaited.cases hawaits).imp And.right And.right⟩

end Preservation

/-- **Addressing is not wedged** as long as the completions the addressing port
waits for are good for it, whatever else fails: in every run from `Initialize`
the port has a command in flight. -/
theorem addressing_not_wedged {hw : PowerOn} {maxPorts : BitVec 8} {pool : Pool} {c : Controller}
    {writes : List RegisterWrite} {s : CommandSystem}
    (hinit : initializeController hw (Controller.new maxPorts pool) = .ok (.kSuccess, c, writes))
    (hrun : ReflTransGen (Step AnyCode Succeeds) (start c) s) : NotWedged s :=
  ((alive_start (initializeController_started rfl hinit)).run hrun).notWedged

instance (s : CommandSystem) (cmd : Command) (trb : Trb) : Decidable (AnyCode s cmd trb) :=
  inferInstanceAs (Decidable (_ → _ → _))

instance (env : Surroundings) (c : Controller) (trb : Trb) : Decidable (Succeeds env c trb) :=
  inferInstanceAs (Decidable (_ → (_ → _ → _) ∧ (_ → _ → _)))

/-- Port 1 is reset and gets slot 1; Address Device is answered with `code`. -/
def addressFirstPort (code : BitVec 8) : List Action :=
  [.configurePort (portsShow fun _ => 1) 1, .report (portStatusChangeEvent 1),
    .processEvent (portsShow fun _ => 0x200003),
    .answer 0 (commandCompletionEvent (sampleController.cr.slotAddr 0) successCode 1),
    .processEvent (portsShow fun _ => 0x200003),
    .answer 0 (commandCompletionEvent (sampleController.cr.slotAddr 1) code 1),
    .processEvent (portsShow fun _ => 0x200003)]

/-- When Address Device succeeds, port 1 is done, and the condition is met all the
way: before the last event its command is in flight. -/
theorem addressing_not_wedged_first_port : ∃ s s',
    ReflTransGen (Step AnyCode Succeeds) (start sampleController) s ∧
      s.ctl.portConfigPhase s.ctl.addressingPort = .kAddressingDevice ∧ NotWedged s ∧
      perform AnyCode Succeeds s [.processEvent (portsShow fun _ => 0x200003)] = .ok s' ∧
      s'.ctl.portConfigPhase 1 = .kInitializingDevice := by
  have hbefore : returns (perform AnyCode Succeeds (start sampleController)
      ((addressFirstPort successCode).take 6)) (fun s =>
        s.ctl.portConfigPhase s.ctl.addressingPort == .kAddressingDevice &&
          returns (perform AnyCode Succeeds s [.processEvent (portsShow fun _ => 0x200003)])
            fun s' => s'.ctl.portConfigPhase 1 == .kInitializingDevice) = true := by
    decide +kernel
  obtain ⟨s, hperform, htest⟩ := exists_of_returns hbefore
  simp only [Bool.and_eq_true, beq_iff_eq] at htest
  obtain ⟨hphase, hlast⟩ := htest
  obtain ⟨s', hperform', hphase'⟩ := exists_of_returns hlast
  obtain ⟨writes, hinit⟩ := sampleController_initialized
  have hrun := perform_run hperform
  exact ⟨s, s', hrun, hphase, addressing_not_wedged hinit hrun, hperform', by simpa using hphase'⟩

/-- **A failed Address Device command wedges its port**: the context was not
written, so the handler returns before it looks for the next port. -/
theorem address_device_failure_wedges : ∃ s,
    ReflTransGen (Step AnyCode fun _ _ _ => True) (start sampleController) s ∧ ¬ NotWedged s := by
  have hreturns : returns (perform AnyCode (fun _ _ _ => True) (start sampleController)
      (addressFirstPort 4)) (fun s => s.ctl.addressingPort == 1 &&
        s.ctl.portConfigPhase 1 == .kAddressingDevice && s.inFlight.isEmpty) = true := by
    decide +kernel
  obtain ⟨s, hperform, htest⟩ := exists_of_returns hreturns
  simp only [Bool.and_eq_true, beq_iff_eq, List.isEmpty_iff] at htest
  obtain ⟨⟨hport, hphase⟩, hempty⟩ := htest
  refine ⟨s, perform_run hperform, fun hnot => ?_⟩
  obtain ⟨cmd, hcmd, -⟩ := hnot (by rw [hport]; decide) (Or.inr (by rw [hport, hphase]))
  rw [hempty] at hcmd
  cases hcmd

end CommandSystem

end Mikanos.Xhci
