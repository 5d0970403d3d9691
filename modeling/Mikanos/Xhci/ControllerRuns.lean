import Mikanos.Xhci.ControllerSteps
import Mathlib.Logic.Relation

/-!
# Runs of the driver

A run alternates calls of the driver with what the controller hardware does.
`Step` is the relation all invariants are about; it leaves open what the
hardware writes.  `perform` is the same for a given list of actions, so that a
run can be computed, and `perform_run` connects the two.
-/

namespace Mikanos.Xhci

open Relation Mikanos.Usb

namespace Controller

/-- The controller hardware writes device contexts. -/
def writeContexts (d : DeviceManager) (contexts : Nat → SlotContext) : DeviceManager :=
  { d with devices := fun i => (d.devices i).map fun dev => { dev with slotContext := contexts i } }

/-- What the controller hardware does between two calls: it writes events into
the event ring, registers of the interrupter and device contexts. -/
def hardware (c : Controller) (mem : Nat → Trb) (interrupter : InterrupterRegisterSet)
    (contexts : Nat → SlotContext) : Controller :=
  { c with
    er := { c.er with mem := mem, interrupter := interrupter }
    devmgr := writeContexts c.devmgr contexts }

/-- A step of a run: a call of `ConfigurePort` for one of the ports, a call of
`ProcessEvent` on an event that `Allowed` admits, or anything the hardware does
in between.  A call without a defined result has no successor. -/
inductive Step (Allowed : Surroundings → Controller → Trb → Prop) : Controller → Controller → Prop
  | configurePort {env : Surroundings} {c c' : Controller} {port : BitVec 8} {err : Error}
      (hpos : 1 ≤ port.toNat) (hmax : port.toNat ≤ c.maxPorts.toNat)
      (hcall : configurePort env c port = .ok (err, c')) : Step Allowed c c'
  | processEvent {env : Surroundings} {c c' : Controller} {err : Error}
      (hallowed : ∀ trb, c.er.hasFront = .ok true → c.er.front = .ok trb → Allowed env c trb)
      (hcall : processEvent env c = .ok (err, c')) : Step Allowed c c'
  | hardware {c : Controller} {mem : Nat → Trb} {interrupter : InterrupterRegisterSet}
      {contexts : Nat → SlotContext} : Step Allowed c (c.hardware mem interrupter contexts)

/-! ## Computed runs -/

/-- The event `trb` is written to the slot the dequeue pointer is at. -/
def postEvent (c : Controller) (trb : Trb) : Controller :=
  let position := (trbIndex c.er.buf c.er.bufSize c.er.readDequeuePointer).getD 0
  c.hardware (Function.update c.er.mem position (trb.stamp c.er.cycleBit)) c.er.interrupter
    fun i => ((c.devmgr.devices i).map Device.slotContext).getD Dwords.zero

/-- The actions of a computed run. -/
inductive Action where
  | configurePort (env : Surroundings) (port : BitVec 8)
  /-- The controller reports an event, and the driver handles it. -/
  | event (env : Surroundings) (trb : Trb)
  /-- The controller writes the slot context of the device in a slot. -/
  | context (slot : Nat) (slotContext : SlotContext)

/-- The effect of one action; actions that are no steps have none. -/
def act (Allowed : Surroundings → Controller → Trb → Prop)
    [∀ env c trb, Decidable (Allowed env c trb)]
    (c : Controller) : Action → Except Fault Controller
  | .configurePort env port =>
      if 1 ≤ port.toNat ∧ port.toNat ≤ c.maxPorts.toNat then
        (configurePort env c port).map Prod.snd
      else .ok c
  | .event env trb =>
      match (c.postEvent trb).er.front with
      | .error fault => .error fault
      | .ok front =>
          if Allowed env (c.postEvent trb) front then
            (processEvent env (c.postEvent trb)).map Prod.snd
          else .ok c
  | .context slot slotContext =>
      .ok (c.hardware c.er.mem c.er.interrupter fun i =>
        if i = slot then slotContext
        else ((c.devmgr.devices i).map Device.slotContext).getD Dwords.zero)

/-- The effect of a list of actions. -/
def perform (Allowed : Surroundings → Controller → Trb → Prop)
    [∀ env c trb, Decidable (Allowed env c trb)]
    (c : Controller) : List Action → Except Fault Controller
  | [] => .ok c
  | a :: rest => (act Allowed c a).bind fun c' => perform Allowed c' rest

variable {Allowed : Surroundings → Controller → Trb → Prop}
  [∀ env c trb, Decidable (Allowed env c trb)]

/-- An action of a computed example is a run of at most two steps of the system: what the
controller does, and then a call of the driver. -/
theorem act_run {c c' : Controller} {a : Action} (h : act Allowed c a = .ok c') :
    ReflTransGen (Step Allowed) c c' := by
  cases a with
  | configurePort env port =>
      rw [act] at h
      split at h
      · rename_i hport
        obtain ⟨⟨err, c₁⟩, hcall, rfl⟩ := map_eq_ok h
        exact .single (.configurePort hport.1 hport.2 hcall)
      · cases h
        exact .refl
  | event env trb =>
      rw [act] at h
      split at h
      · cases h
      · rename_i front hfront
        split at h
        · rename_i hallowed
          obtain ⟨⟨err, c₁⟩, hcall, rfl⟩ := map_eq_ok h
          have hpost : Step Allowed c (c.postEvent trb) := .hardware
          refine (ReflTransGen.single hpost).tail (.processEvent (fun trb' _ htrb' => ?_) hcall)
          rw [hfront] at htrb'
          cases htrb'
          exact hallowed
        · cases h
          exact .refl
  | context slot slotContext =>
      cases h
      exact .single .hardware

/-- **A computed run is a run**: what examples compute action by action is reached by steps of
the driver and the controller. -/
theorem perform_run {actions : List Action} : ∀ {c c' : Controller},
    perform Allowed c actions = .ok c' → ReflTransGen (Step Allowed) c c' := by
  induction actions with
  | nil =>
      intro c c' h
      cases h
      exact .refl
  | cons a rest ih =>
      intro c c' h
      obtain ⟨c₁, hact, h⟩ := bind_eq_ok.mp h
      exact (act_run hact).trans (ih h)

/-- The state at the end of a computed run. -/
def performed (Allowed : Surroundings → Controller → Trb → Prop)
    [∀ env c trb, Decidable (Allowed env c trb)]
    (c : Controller) (actions : List Action) : Controller :=
  (perform Allowed c actions).toOption.getD c

/-- The end of a computed run is reachable. -/
theorem performed_run (Allowed : Surroundings → Controller → Trb → Prop)
    [∀ env c trb, Decidable (Allowed env c trb)] (c : Controller) (actions : List Action) :
    ReflTransGen (Step Allowed) c (performed Allowed c actions) := by
  unfold performed
  cases h : perform Allowed c actions with
  | error fault => exact .refl
  | ok c' => exact perform_run h

/-- A Port Status Change Event for `port`. -/
def portStatusChangeEvent (port : BitVec 8) : Trb :=
  (Trb.zero.setBits 3 10 portStatusChangeEventType).setBits 0 24 port

/-- A Command Completion Event for the command TRB at address `command`. -/
def commandCompletionEvent (command : Addr) (completionCode slotId : BitVec 8) : Trb :=
  (((Trb.zero.setBits 3 10 commandCompletionEventType).setBits 3 24 slotId).setBits 2 24
    completionCode).setPointer60 command

/-- Port registers that read `value`, with resets that end, and no memory of
interest. -/
def portsShow (value : BitVec 8 → PortSc) : Surroundings where
  portsc := fun port _ => value port
  resetEnds := fun _ => true
  dma := ⟨fun _ => Trb.zero, fun _ => []⟩
  observers := ⟨false, false⟩

/-- A slot context that names a root hub port. -/
def slotContextOf (port : BitVec 8) : SlotContext := Dwords.zero.setBits 1 16 port

end Controller

end Mikanos.Xhci
