import Mikanos.Xhci.Port

/-!
# What a write to PORTSC changes

The bits of PORTSC take a write in different ways: some are cleared by a 1, some are set by
a 1, the link state is only written together with its strobe, some hold what is written and
the others ignore it (`PortBit`).  A member function of `Port` that writes back what it has
read must therefore mask the bits of the first two kinds, and must not mask those that
hold what is written.
-/

namespace Mikanos.Xhci

open BitField

/-- The ways in which a bit of PORTSC takes a write. -/
inductive PortBit where
  /-- The write has no effect. -/
  | readOnly
  /-- Cleared by writing 1 (RW1C). -/
  | writeOneToClear
  /-- Set by writing 1 (RW1S). -/
  | writeOneToSet
  /-- Takes the written value if the strobe is written 1. -/
  | linkState
  /-- Takes the written value. -/
  | readWrite
  deriving DecidableEq

/-- The kind of bit `i`: PED and the change bits, PR and WPR, PLS, then PP, PIC and the wake
bits. -/
def portBit (i : Nat) : PortBit :=
  if i = 1 ∨ 17 ≤ i ∧ i ≤ 23 then .writeOneToClear
  else if i = 4 ∨ i = 31 then .writeOneToSet
  else if 5 ≤ i ∧ i ≤ 8 then .linkState
  else if i = 9 ∨ 14 ≤ i ∧ i ≤ 15 ∨ 25 ≤ i ∧ i ≤ 27 then .readWrite
  else .readOnly

namespace PortSc

/-- The bit LWS, the strobe of the link state. -/
def linkWriteStrobe (p : PortSc) : Bool := p.getLsbD 16

/-- What a read of a register with the contents `r` returns: LWS and WPR read 0. -/
def read (r : PortSc) : PortSc := r &&& 0x7ffeffff

/-- Bit `i` of the register with the contents `r` after `w` is written. -/
def writtenBit (r w : PortSc) (i : Nat) : Bool :=
  match portBit i with
  | .readOnly => r.getLsbD i
  | .writeOneToClear => r.getLsbD i && !w.getLsbD i
  | .writeOneToSet => r.getLsbD i || w.getLsbD i
  | .linkState => if w.linkWriteStrobe then w.getLsbD i else r.getLsbD i
  | .readWrite => w.getLsbD i

/-- The bits of each kind. -/
def clearMask : PortSc := 0x00fe0002
def setMask : PortSc := 0x80000010
def linkMask : PortSc := 0x000001e0
def heldMask : PortSc := 0x0e00c200

/-- The contents `r` of the register after `w` is written. -/
def write (r w : PortSc) : PortSc :=
  let held := if w.linkWriteStrobe then heldMask ||| linkMask else heldMask
  (((r &&& ~~~(w &&& clearMask)) ||| (w &&& setMask)) &&& ~~~held) ||| (w &&& held)

/-- What `Port::ClearConnectStatusChanged()` writes. -/
def clearConnectStatusChanged (p : PortSc) : PortSc := p.clearStatusBit 17

/-! ## What the driver writes back -/

/-- The masks of `write` are the kinds of the bits. -/
theorem masks_eq : ∀ i < 32,
    clearMask.getLsbD i = decide (portBit i = .writeOneToClear) ∧
      setMask.getLsbD i = decide (portBit i = .writeOneToSet) ∧
      linkMask.getLsbD i = decide (portBit i = .linkState) ∧
      heldMask.getLsbD i = decide (portBit i = .readWrite) := by
  decide

/-- A write to PORTSC, bit by bit: what becomes of a bit depends on its kind, on its old value
and on what is written there. -/
theorem getLsbD_write (r w : PortSc) {i : Nat} (hi : i < 32) :
    (write r w).getLsbD i = writtenBit r w i := by
  obtain ⟨hclear, hset, hlink, hheld⟩ := masks_eq i hi
  unfold write writtenBit
  cases hstrobe : w.linkWriteStrobe with
  | true =>
      cases hkind : portBit i <;>
        simp only [BitVec.getLsbD_or, BitVec.getLsbD_and, BitVec.getLsbD_not, hi, hkind, hclear,
          hset, hlink, hheld, if_true] <;>
        simp
  | false =>
      cases hkind : portBit i <;>
        simp only [BitVec.getLsbD_or, BitVec.getLsbD_and, BitVec.getLsbD_not, hi, hkind, hclear,
          hset, hheld, Bool.false_eq_true, if_false] <;>
        simp

/-- The bits that `CLEAR_STATUS_BIT` and `Reset` keep, of those that can be read as 1. -/
def kept (i : Nat) : Bool := (0x0e00c3e0 : PortSc).getLsbD i

/-- What the code writes to clear a status bit: this bit is 1, the bits it means to keep are as
they were read, and all others are 0. -/
theorem getLsbD_clearStatusBit (r : PortSc) {bit i : Nat} (hbit : bit < 32) (hi : i < 32) :
    ((read r).clearStatusBit bit).getLsbD i = if i = bit then true else r.getLsbD i && kept i := by
  have hmask : (0x7ffeffff &&& 0x0e01c3e0 : PortSc) = 0x0e00c3e0 := by decide
  rw [clearStatusBit, read, getLsbD_setField, BitVec.and_assoc, hmask, BitVec.getLsbD_and]
  by_cases heq : i = bit
  · subst heq
    rw [if_pos ⟨hi, Nat.le_refl i, Nat.lt_succ_self i⟩, if_pos rfl, Nat.sub_self]
    rfl
  · rw [if_neg (fun h => heq (by omega)), if_neg heq]
    rfl

/-- What it writes for a reset: the bits to keep as they were read, the reset bit, and the bit
that clears the change of the connection. -/
theorem getLsbD_reset (r : PortSc) (i : Nat) :
    (read r).reset.getLsbD i = (r.getLsbD i && kept i || (0x00020010 : PortSc).getLsbD i) := by
  have hmask : (0x7ffeffff &&& 0x0e00c3e0 : PortSc) = 0x0e00c3e0 := by decide
  rw [reset, read, BitVec.and_assoc, hmask, BitVec.getLsbD_or, BitVec.getLsbD_and]
  rfl

/-- **The mask fits the register**: what it keeps is what holds the written value, and what
it drops is not harmed by a 0. -/
theorem kept_iff : ∀ i < 32, kept i = true ↔ portBit i = .linkState ∨ portBit i = .readWrite := by
  decide

/-- A bit that is written back as it was read, or as 0 where the mask drops it, is unchanged, as
dropped bits are those where 0 does nothing. -/
theorem writtenBit_of_kept {r w : PortSc} {i : Nat} (hi : i < 32)
    (hstrobe : w.linkWriteStrobe = false) (hw : w.getLsbD i = (r.getLsbD i && kept i)) :
    writtenBit r w i = r.getLsbD i := by
  have hkept := kept_iff i hi
  unfold writtenBit
  cases hkind : portBit i with
  | readOnly => rfl
  | writeOneToClear =>
      have hdropped : kept i = false := by simpa [hkind] using hkept
      simp [hw, hdropped]
  | writeOneToSet =>
      have hdropped : kept i = false := by simpa [hkind] using hkept
      simp [hw, hdropped]
  | linkState => simp [hstrobe]
  | readWrite =>
      have hheld : kept i = true := by simpa [hkind] using hkept
      simp [hw, hheld]

/-! ## What changes -/

/-- Of the register only the bit `change` has changed, which is cleared. -/
def Acknowledges (change : Nat) (before after : PortSc) : Prop :=
  ∀ i < 32, after.getLsbD i = if i = change then false else before.getLsbD i

/-- The reset is started and a connect status change is acknowledged; the port is still
enabled if it was, and every other change, the power, the link state, the indicator and the
wake settings are what they were. -/
structure StartsReset (before after : PortSc) : Prop where
  portReset : after.getLsbD 4 = true
  connectStatusChange : after.getLsbD 17 = false
  frame : ∀ i < 32, i ≠ 4 → i ≠ 17 → after.getLsbD i = before.getLsbD i

/-- **`CLEAR_STATUS_BIT`** for a change bit acknowledges that change, and every other bit of the
register is what it was. -/
theorem clearStatusBit_acknowledges (r : PortSc) {change : Nat} (hlow : 17 ≤ change)
    (hhigh : change ≤ 23) : Acknowledges change r (r.write ((read r).clearStatusBit change)) := by
  intro i hi
  have hbit := fun j (hj : j < 32) => @getLsbD_clearStatusBit r change j (by omega) hj
  rw [getLsbD_write _ _ hi]
  by_cases heq : i = change
  · have hkind : portBit i = .writeOneToClear := by
      unfold portBit
      rw [if_pos]
      omega
    have hone := hbit i hi
    rw [if_pos heq] at hone
    rw [if_pos heq, writtenBit, hkind]
    simp [hone]
  · have hother := hbit i hi
    have hstrobe := hbit 16 (by decide)
    rw [if_neg heq] at hother
    rw [if_neg (by omega)] at hstrobe
    have hdropped : kept 16 = false := by decide
    rw [hdropped, Bool.and_false] at hstrobe
    rw [if_neg heq, writtenBit_of_kept hi hstrobe hother]

/-- **`Reset` starts a reset**: bit 4 is set, a connect status change in bit 17 is acknowledged,
and every other bit is what it was, the power of the port included. -/
theorem reset_startsReset (r : PortSc) : StartsReset r (r.write (read r).reset) := by
  have hstrobe : (read r).reset.linkWriteStrobe = false := by
    have hdropped : kept 16 = false := by decide
    have hclear : (0x00020010 : PortSc).getLsbD 16 = false := by decide
    rw [linkWriteStrobe, getLsbD_reset, hdropped, hclear, Bool.and_false, Bool.or_false]
  constructor
  case portReset =>
    have hone : (0x00020010 : PortSc).getLsbD 4 = true := by decide
    rw [getLsbD_write _ _ (by decide)]
    change (r.getLsbD 4 || (read r).reset.getLsbD 4) = true
    rw [getLsbD_reset, hone, Bool.or_true, Bool.or_true]
  case connectStatusChange =>
    have hone : (0x00020010 : PortSc).getLsbD 17 = true := by decide
    rw [getLsbD_write _ _ (by decide)]
    change (r.getLsbD 17 && !(read r).reset.getLsbD 17) = false
    rw [getLsbD_reset, hone, Bool.or_true, Bool.not_true, Bool.and_false]
  case frame =>
    intro i hi hpr hcsc
    have hzero : ∀ i < 32, i ≠ 4 → i ≠ 17 → (0x00020010 : PortSc).getLsbD i = false := by decide
    have hwritten := getLsbD_reset r i
    rw [hzero i hi hpr hcsc, Bool.or_false] at hwritten
    rw [getLsbD_write _ _ hi, writtenBit_of_kept hi hstrobe hwritten]

/-- **A write to PORTSC touches nothing else**, whatever the register holds: the two
acknowledgements clear their change bit, and the reset is started. The loop at the end of
`Port::Reset()` only reads. -/
theorem port_writes_touch_nothing_else (r : PortSc) :
    Acknowledges 21 r (r.write (read r).clearPortResetChange) ∧
      Acknowledges 17 r (r.write (read r).clearConnectStatusChanged) ∧
      StartsReset r (r.write (read r).reset) :=
  ⟨clearStatusBit_acknowledges r (by decide) (by decide),
    clearStatusBit_acknowledges r (by decide) (by decide), reset_startsReset r⟩

end PortSc

end Mikanos.Xhci
