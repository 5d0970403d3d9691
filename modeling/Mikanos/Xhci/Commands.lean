import Mikanos.Xhci.PortAddressing

/-!
# The commands of a port

The driver pushes at most three commands for a port: Enable Slot, Address Device
and Configure Endpoint, in this order, each when the port enters the phase in
which it waits for the completion.  So the phase of a port tells which commands
have been pushed for it (`ConfigPhase.commandTypes`), whatever the controller
answers.

`InOrder` is the invariant; it also says where the commands are on the command
ring.  `outcome_pushes` reads off it what a handler does: it pushes nothing and
moves no port to another set of commands, or it pushes the next command of one
port.  As long as fewer than a lap of commands have been pushed since, a command
is found at its place again (`InOrder.trbAt_position`).
-/

namespace Mikanos.Xhci

open Usb

/-- `bits.slot_id` of an Address Device or Configure Endpoint command. -/
def commandSlotId (trb : Trb) : BitVec 8 := trb.bits 3 24 8

/-- The type that the controller reads in an Enable Slot command. -/
@[simp] theorem trbType_enableSlotCommandTRB :
    enableSlotCommandTRB.trbType = enableSlotCommandType := by
  rw [enableSlotCommandTRB, Trb.trbType, Trb.bits_setBits_same _ _ _ _ (by decide)]
  rfl

/-- The type that the controller reads in an Address Device command. -/
@[simp] theorem trbType_addressDeviceCommandTRB (p : Addr) (slotId : BitVec 8) :
    (addressDeviceCommandTRB p slotId).trbType = addressDeviceCommandType := by
  rw [addressDeviceCommandTRB, Trb.trbType,
    Trb.bits_setPointer60_of_ne _ _ _ _ (by decide) (by decide),
    Trb.bits_setBits_of_disjoint _ _ _ _ _ _ (by decide),
    Trb.bits_setBits_same _ _ _ _ (by decide)]
  rfl

/-- The type that the controller reads in a Configure Endpoint command. -/
@[simp] theorem trbType_configureEndpointCommandTRB (p : Addr) (slotId : BitVec 8) :
    (configureEndpointCommandTRB p slotId).trbType = configureEndpointCommandType := by
  rw [configureEndpointCommandTRB, Trb.trbType,
    Trb.bits_setPointer60_of_ne _ _ _ _ (by decide) (by decide),
    Trb.bits_setBits_of_disjoint _ _ _ _ _ _ (by decide),
    Trb.bits_setBits_same _ _ _ _ (by decide)]
  rfl

/-- The slot that an Address Device command names. -/
@[simp] theorem commandSlotId_addressDeviceCommandTRB (p : Addr) (slotId : BitVec 8) :
    commandSlotId (addressDeviceCommandTRB p slotId) = slotId := by
  rw [addressDeviceCommandTRB, commandSlotId,
    Trb.bits_setPointer60_of_ne _ _ _ _ (by decide) (by decide),
    Trb.bits_setBits_same _ _ _ _ (by decide)]

/-- The slot that a Configure Endpoint command names. -/
@[simp] theorem commandSlotId_configureEndpointCommandTRB (p : Addr) (slotId : BitVec 8) :
    commandSlotId (configureEndpointCommandTRB p slotId) = slotId := by
  rw [configureEndpointCommandTRB, commandSlotId,
    Trb.bits_setPointer60_of_ne _ _ _ _ (by decide) (by decide),
    Trb.bits_setBits_same _ _ _ _ (by decide)]

/-- The commands that have been pushed for a port in this phase. -/
def ConfigPhase.commandTypes : ConfigPhase → List (BitVec 6)
  | .kNotConnected | .kWaitingAddressed | .kResettingPort => []
  | .kEnablingSlot => [enableSlotCommandType]
  | .kAddressingDevice | .kInitializingDevice => [enableSlotCommandType, addressDeviceCommandType]
  | .kConfiguringEndpoints | .kConfigured =>
      [enableSlotCommandType, addressDeviceCommandType, configureEndpointCommandType]

/-- Every phase has seen a part of the same sequence of commands. -/
theorem ConfigPhase.commandTypes_prefix (phase : ConfigPhase) : phase.commandTypes <+:
    [enableSlotCommandType, addressDeviceCommandType, configureEndpointCommandType] := by
  cases phase <;> decide

/-- In no phase is a port waiting for the same command twice. -/
theorem ConfigPhase.commandTypes_nodup (phase : ConfigPhase) : phase.commandTypes.Nodup := by
  cases phase <;> decide

/-- The command whose completion a port in this phase waits for. -/
def ConfigPhase.awaitedType : ConfigPhase → Option (BitVec 6)
  | .kEnablingSlot => some enableSlotCommandType
  | .kAddressingDevice => some addressDeviceCommandType
  | .kConfiguringEndpoints => some configureEndpointCommandType
  | _ => none

/-- A port awaits what its new phase awaits. -/
theorem awaitedType_update (phases : BitVec 8 → ConfigPhase) (port : BitVec 8)
    {phase : ConfigPhase} {type : BitVec 6} (h : phase.awaitedType = some type) :
    (Function.update phases port phase port).awaitedType = some type := by
  rw [Function.update_self]
  exact h

namespace Controller

/-- The types of the commands pushed for a port. -/
def commandTypes (c : Controller) (port : BitVec 8) : List (BitVec 6) :=
  (c.commands.filter fun cmd => cmd.port = port).map fun cmd => cmd.trb.trbType

/-- The invariant of the commands: each is where it was pushed, as far as the
ring remembers it, and the phase of a port tells which it has. -/
structure InOrder (c : Controller) : Prop where
  ring : c.cr.Remembers 32 (c.commands.map Command.trb)
  position : ∀ k cmd, c.commands[k]? = some cmd → cmd.position = c.cr.slotAddr (k % 31)
  types : ∀ p, c.commandTypes p = (c.portConfigPhase p).commandTypes

/-- What a call can have to do with commands. -/
inductive Pushes (c c' : Controller) : Prop
  | none (hcr : c'.cr = c.cr) (hcommands : c'.commands = c.commands)
      (htypes : ∀ p, (c'.portConfigPhase p).commandTypes = (c.portConfigPhase p).commandTypes)
  | one (port : BitVec 8) (trb : Trb) (position : Addr) (cr : Ring)
      (hpush : c.cr.push trb = .ok (position, cr)) (hcr : c'.cr = cr)
      (hcommands : c'.commands = c.commands ++ [⟨port, position, trb⟩])
      (htype : (c'.portConfigPhase port).commandTypes =
        (c.portConfigPhase port).commandTypes ++ [trb.trbType])
      (hothers : ∀ p, p ≠ port → c'.portConfigPhase p = c.portConfigPhase p)

/-- A phase that is left for one with the same commands. -/
theorem commandTypes_update {phases : BitVec 8 → ConfigPhase} {port : BitVec 8}
    {phase phase' : ConfigPhase} (hphase : phases port = phase)
    (hsame : phase'.commandTypes = phase.commandTypes) (p : BitVec 8) :
    (Function.update phases port phase' p).commandTypes = (phases p).commandTypes := by
  by_cases hp : p = port
  · subst hp
    rw [Function.update_self, hsame, hphase]
  · rw [Function.update_of_ne hp]

/-- **Every handler** pushes the next command of one port, or none: the port has been in the
phase that the command belongs to. -/
theorem outcome_pushes {env : Surroundings} {trb : Trb} {c c' : Controller}
    (h : EventOutcome env trb c c') : Pushes c c' := by
  cases h with
  | refused => exact .none rfl rfl fun _ => rfl
  | wait _ hphase _ => exact .none rfl rfl (commandTypes_update hphase rfl)
  | reset _ hphase _ => exact .none rfl rfl (commandTypes_update hphase rfl)
  | @enable position cr _ hphase hpush =>
      refine .one (eventPortId trb) _ position cr hpush rfl rfl ?_ fun p hp => ?_
      · show (Function.update c.portConfigPhase _ _ _).commandTypes = _
        rw [Function.update_self, hphase, trbType_enableSlotCommandTRB]
        rfl
      · exact Function.update_of_ne hp _ _
  | noSlot => exact .none rfl rfl fun _ => rfl
  | @address dev₀ dev pool position cr _ _ hphase _ _ _ _ hpush =>
      refine .one c.addressingPort _ position cr hpush rfl rfl ?_ fun p hp => ?_
      · show (Function.update c.portConfigPhase _ _ _).commandTypes = _
        rw [Function.update_self, hphase, trbType_addressDeviceCommandTRB]
        rfl
      · exact Function.update_of_ne hp _ _
  | @addressed dev dev' c₁ _ _ _ _ hphase hnext _ =>
      rcases hnext with rfl | ⟨port, hfirst, rfl⟩
      · exact .none rfl rfl (commandTypes_update hphase rfl)
      · have hwaiting := (firstWaiting_eq_some hfirst).1
        have hne : c.addressingPort ≠ port := by
          intro heq
          rw [heq, hwaiting] at hphase
          cases hphase
        have hreset : ∀ p, (Function.update c.portConfigPhase port .kResettingPort p).commandTypes =
            (c.portConfigPhase p).commandTypes := commandTypes_update hwaiting rfl
        have hother : Function.update c.portConfigPhase port .kResettingPort c.addressingPort =
            .kAddressingDevice := (Function.update_of_ne hne _ _).trans hphase
        exact .none rfl rfl fun p => (commandTypes_update hother (by rfl) p).trans (hreset p)
  | transfer => exact .none rfl rfl fun _ => rfl
  | @configure dev dev' pool position cr _ _ hphase hsame _ hpush =>
      rw [← hsame.slotContext] at hphase
      refine .one dev'.slotContext.rootHubPortNum _ position cr hpush rfl rfl ?_ fun p hp => ?_
      · show (Function.update c.portConfigPhase _ _ _).commandTypes = _
        rw [Function.update_self, hphase, trbType_configureEndpointCommandTRB]
        rfl
      · exact Function.update_of_ne hp _ _
  | configured _ _ _ hphase _ => exact .none rfl rfl (commandTypes_update hphase rfl)

section Preservation

variable {c c' : Controller}

/-- **Step lemma.** A push keeps the commands in order: the new one is behind the others on the
ring, and its port has not had one of its type. -/
theorem InOrder.pushes (h : InOrder c) (hpushes : Pushes c c') : InOrder c' := by
  cases hpushes with
  | none hcr hcommands htypes =>
      constructor
      case ring => rw [hcr, hcommands]; exact h.ring
      case position => rw [hcr, hcommands]; exact h.position
      case types =>
        intro p
        rw [htypes, ← h.types, commandTypes, hcommands, commandTypes]
  | one port trb position cr hpush hcr hcommands htype hothers =>
      obtain ⟨cr', hpush', hbuf, hremembers⟩ := h.ring.push (by decide) trb
      rw [hpush] at hpush'
      obtain ⟨hposition, rfl⟩ := Prod.mk.inj (Except.ok.inj hpush')
      constructor
      case ring =>
        rw [hcr, hcommands, List.map_append]
        exact hremembers
      case position =>
        intro k cmd hk
        have hslot : ∀ i, c'.cr.slotAddr i = c.cr.slotAddr i := by
          intro i
          rw [Ring.slotAddr, Ring.slotAddr, hcr, hbuf]
        rw [hslot]
        rw [hcommands] at hk
        rcases Nat.lt_or_ge k c.commands.length with hlt | hge
        · rw [List.getElem?_append_left hlt] at hk
          exact h.position k cmd hk
        · have hkeq : k = c.commands.length := by
            have hlen := (List.getElem?_eq_some_iff.mp hk).1
            rw [List.length_append, List.length_singleton] at hlen
            omega
          rw [hkeq, List.getElem?_append_right (Nat.le_refl _), Nat.sub_self] at hk
          obtain rfl := Option.some.inj hk
          rw [hkeq, hposition, List.length_map]
      case types =>
        intro p
        have hsplit : c'.commandTypes p = c.commandTypes p ++
            if port = p then [trb.trbType] else [] := by
          rw [commandTypes, hcommands, List.filter_append, List.map_append, commandTypes]
          by_cases hp : port = p <;> simp [hp]
        rw [hsplit, h.types]
        by_cases hp : port = p
        · subst hp
          rw [if_pos rfl, htype]
        · rw [if_neg hp, List.append_nil, hothers p (Ne.symm hp)]

/-- The commands after `Initialize` are in order: there are none, the ring is empty and no port
is connected. -/
theorem Started.inOrder {c₀ : Controller} (h : Started c₀ c) (hcommands : c₀.commands = [])
    (hphases : ∀ p, c₀.portConfigPhase p = .kNotConnected) : InOrder c where
  ring := by
    rw [h.commands, hcommands]
    exact h.cr
  position := by
    intro k cmd hk
    rw [h.commands, hcommands] at hk
    cases hk
  types := by
    intro p
    rw [commandTypes, h.commands, hcommands, h.phases, hphases]
    rfl

/-! ## Finding commands again -/

/-- The type of a command is one that its port has reached. -/
theorem InOrder.type_mem (h : InOrder c) {cmd : Command} (hcmd : cmd ∈ c.commands) :
    cmd.trb.trbType ∈ (c.portConfigPhase cmd.port).commandTypes := by
  rw [← h.types, commandTypes]
  exact List.mem_map_of_mem (List.mem_filter.mpr ⟨hcmd, by simp⟩)

/-- A command that is pushed has not been pushed before. -/
theorem InOrder.fresh (h : InOrder c) {port : BitVec 8} {trb : Trb} (position : Addr)
    {phase : ConfigPhase} (htype : phase.commandTypes =
      (c.portConfigPhase port).commandTypes ++ [trb.trbType]) :
    (⟨port, position, trb⟩ : Command) ∉ c.commands := by
  intro hmem
  have htypes := h.type_mem hmem
  have hnodup := phase.commandTypes_nodup
  rw [htype] at hnodup
  exact List.disjoint_of_nodup_append hnodup htypes (List.mem_singleton_self _)

/-- A port has one command of each type: its phases only go forward, and each of them pushes
one. -/
theorem InOrder.unique (h : InOrder c) {cmd cmd' : Command} (hcmd : cmd ∈ c.commands)
    (hcmd' : cmd' ∈ c.commands) (hport : cmd.port = cmd'.port)
    (htype : cmd.trb.trbType = cmd'.trb.trbType) : cmd = cmd' := by
  have hnodup : (c.commandTypes cmd'.port).Nodup := by
    rw [h.types]
    exact ConfigPhase.commandTypes_nodup _
  apply List.inj_on_of_nodup_map hnodup
  · exact List.mem_filter.mpr ⟨hcmd, by simpa using hport⟩
  · exact List.mem_filter.mpr ⟨hcmd', by simp⟩
  · exact htype

/-- No command is pushed twice, since two of them differ in the port, in the type or in both. -/
theorem InOrder.nodup (h : InOrder c) : c.commands.Nodup := by
  rw [List.nodup_iff_count_le_one]
  intro cmd
  have hnodup : (c.commandTypes cmd.port).Nodup := by
    rw [h.types]
    exact ConfigPhase.commandTypes_nodup _
  have hcount := List.nodup_iff_count_le_one.mp (List.Nodup.of_map _ hnodup) cmd
  rw [List.count_filter (by simp)] at hcount
  exact hcount

/-- **A command is found at its place** while less than a lap of commands have followed it: the
TRB that its event points to is still the command. -/
theorem InOrder.trbAt_position (h : InOrder c) {k : Nat} {cmd : Command}
    (hk : c.commands[k]? = some cmd) (hrecent : c.commands.length ≤ k + 31) (env : Surroundings) :
    (trbAt env c cmd.position).stamp false = cmd.trb.stamp false := by
  have hslot : c.cr.slotAt cmd.position = some (k % 31) := by
    rw [h.position k cmd hk, Ring.slotAt, Ring.slotAddr, h.ring.size]
    exact trbIndex_trbAddr _ (by omega) (by decide)
  have hmap : (c.commands.map Command.trb)[k]? = some cmd.trb := by
    rw [List.getElem?_map, hk]
    rfl
  unfold trbAt
  rw [hslot]
  exact h.ring.recent k cmd.trb hmap (by rw [List.length_map]; omega)

/-- The completion handler reads the type of the command. -/
theorem InOrder.issuer_type (h : InOrder c) {k : Nat} {cmd : Command}
    (hk : c.commands[k]? = some cmd) (hrecent : c.commands.length ≤ k + 31) (env : Surroundings) :
    (trbAt env c cmd.position).trbType = cmd.trb.trbType := by
  rw [← Trb.trbType_stamp _ false, h.trbAt_position hk hrecent env, Trb.trbType_stamp]

end Preservation

end Controller

end Mikanos.Xhci
