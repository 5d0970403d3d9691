import Mikanos.Lib.BitField
import Mikanos.Error
import Mathlib.Logic.Function.Basic

/-!
# Slot, endpoint and input contexts

The records of `context.hpp` that the driver shares with the controller, as
double words with bit-fields.  The controller writes a device's own context
(`DeviceContext`), the driver fills in the input context that a command passes
to the controller.
-/

namespace Mikanos.Xhci

open BitField

/-- Eight double words with bit-fields. -/
@[ext] structure Dwords where
  dwords : Fin 8 → BitVec 32
  deriving DecidableEq

namespace Dwords

/-- Double words are numbered by literals. -/
instance : NeZero 8 := ⟨by decide⟩

/-- All double words zero. -/
def zero : Dwords := ⟨fun _ => 0⟩

/-- The bit-field `lo .. lo + len - 1` of double word `i`. -/
def bits (c : Dwords) (i : Fin 8) (lo len : Nat) : BitVec len := field (c.dwords i) lo len

/-- Assignment to a bit-field of double word `i`. -/
def setBits (c : Dwords) (i : Fin 8) (lo : Nat) {len : Nat} (v : BitVec len) : Dwords :=
  ⟨Function.update c.dwords i (setField (c.dwords i) lo v)⟩

/-- A bit field of a context reads back as it was written. -/
theorem bits_setBits_same (c : Dwords) (i : Fin 8) (lo : Nat) {len : Nat} (v : BitVec len)
    (hfit : lo + len ≤ 32) : (c.setBits i lo v).bits i lo len = v := by
  simp [bits, setBits, field_setField_same _ _ _ hfit]

/-- Different fields of a context are independent, as those of a TRB are. -/
theorem bits_setBits_of_disjoint (c : Dwords) (i j : Fin 8) (lo lo' : Nat) {len len' : Nat}
    (v : BitVec len) (h : i ≠ j ∨ lo' + len' ≤ lo ∨ lo + len ≤ lo') :
    (c.setBits i lo v).bits j lo' len' = c.bits j lo' len' := by
  by_cases hij : j = i
  · subst hij
    have hdis := h.resolve_left (fun hne => hne rfl)
    simp [bits, setBits, field_setField_of_disjoint _ _ _ _ hdis]
  · simp [bits, setBits, Function.update_of_ne hij]

end Dwords

/-- `union SlotContext`. -/
abbrev SlotContext := Dwords

namespace SlotContext

/-- `bits.speed`. -/
def speed (c : SlotContext) : BitVec 4 := c.bits 0 20 4

/-- `bits.root_hub_port_num`. -/
def rootHubPortNum (c : SlotContext) : BitVec 8 := c.bits 1 16 8

end SlotContext

/-- `union EndpointContext`. -/
abbrev EndpointContext := Dwords

/-- `EndpointContext::SetTransferRingBuffer(buffer)`: a 60-bit field in double
words 2 and 3. -/
def EndpointContext.setTransferRingBuffer (c : EndpointContext) (buffer : Addr) :
    EndpointContext :=
  let p := buffer >>> 4
  (c.setBits 2 4 (p.extractLsb' 0 28)).setBits 3 0 (p.extractLsb' 28 32)

/-- `struct InputContext`.  Of the input control context only the two flag words
are ever written, apart from being cleared. -/
structure InputContext where
  dropContextFlags : BitVec 32
  addContextFlags : BitVec 32
  slotContext : SlotContext
  epContexts : Fin 31 → EndpointContext

namespace InputContext

/-- The zero-filled input context of a new device. -/
def zero : InputContext := ⟨0, 0, Dwords.zero, fun _ => Dwords.zero⟩

/-- `memset(&input_control_context, 0, sizeof(InputControlContext))`. -/
def clearControl (c : InputContext) : InputContext :=
  { c with dropContextFlags := 0, addContextFlags := 0 }

/-- `EnableSlotContext()`. -/
def enableSlotContext (c : InputContext) : InputContext :=
  { c with addContextFlags := c.addContextFlags ||| 1 }

/-- `EnableEndpoint(dci)`: the flag of a `dci` whose context has index `i`. -/
def enableEndpoint (c : InputContext) (i : Fin 31) : InputContext :=
  { c with addContextFlags := c.addContextFlags ||| (1 <<< (i.val + 1)) }

end InputContext

end Mikanos.Xhci
