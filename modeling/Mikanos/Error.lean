import Mathlib.Tactic

/-!
# Error codes, machine addresses and undefined behaviour

The driver reports failures as values of `Error`, of which `kSuccess` is the
only one that converts to `false`.  A function of the source that may also run
into undefined behaviour (a null object, an index outside its array) or never
return is modelled in `Except Fault`: `.error f` says that the C++ program has
no defined result there, `.ok (err, s)` that it returned the code `err` and
left the state `s`.  The two must not be confused: an `Error` is a result the
caller sees, a `Fault` is the absence of one.
-/

namespace Mikanos

/-- `Error::Code` of `error.hpp`. -/
inductive Error where
  | kSuccess
  | kFull
  | kEmpty
  | kNoEnoughMemory
  | kIndexOutOfRange
  | kHostControllerNotHalted
  | kInvalidSlotID
  | kPortNotConnected
  | kInvalidEndpointNumber
  | kTransferRingNotSet
  | kAlreadyAllocated
  | kNotImplemented
  | kInvalidDescriptor
  | kBufferTooSmall
  | kUnknownDevice
  | kNoCorrespondingSetupStage
  | kTransferFailed
  | kInvalidPhase
  | kUnknownXHCISpeedID
  | kNoWaiter
  deriving DecidableEq, Repr

/-- Ways in which a call has no defined result. -/
inductive Fault where
  /-- An object, a ring buffer or a descriptor is accessed through a null pointer. -/
  | nullDereference
  /-- An access outside the array or buffer it is made to. -/
  | outOfBounds
  /-- A loop that makes no further progress. -/
  | endlessLoop
  /-- The null pointer that tells the end of the received data is dereferenced. -/
  | endOfData
  /-- An element behind the last one of a table that is a member of the object. -/
  | tableOverflow
  deriving DecidableEq, Repr

/-- Going on after a call that returned. -/
theorem bind_ok {ε α β : Type} (a : α) (f : α → Except ε β) : (Except.ok a).bind f = f a := rfl

/-- **A sequence of two calls returns when both of them do.** This is how a call of the driver
is taken apart: the first call has returned some `a`, and the second, made with `a`, returns
`b`. -/
theorem bind_eq_ok {ε α β : Type} {x : Except ε α} {f : α → Except ε β} {b : β} :
    x.bind f = .ok b ↔ ∃ a, x = .ok a ∧ f a = .ok b := by
  cases x with
  | error e =>
      constructor
      · intro h
        cases h
      · rintro ⟨a, h, -⟩
        cases h
  | ok a =>
      constructor
      · exact fun h => ⟨a, rfl, h⟩
      · rintro ⟨a', h, hf⟩
        cases h
        exact hf

/-- The result of a call that returns, converted. -/
theorem map_eq_ok {ε α β : Type} {x : Except ε α} {f : α → β} {b : β} (h : x.map f = .ok b) :
    ∃ a, x = .ok a ∧ f a = b := by
  cases x with
  | error e => cases h
  | ok a => exact ⟨a, rfl, Except.ok.inj h⟩

/-- A sequence of two calls ends in a fault only if one of them does. -/
theorem bind_ne_error {ε α β : Type} {x : Except ε α} {f : α → Except ε β} {e : ε}
    (hx : x ≠ .error e) (hf : ∀ a, x = .ok a → f a ≠ .error e) : x.bind f ≠ .error e := by
  cases x with
  | error e' =>
      intro h
      cases h
      exact hx rfl
  | ok a => exact hf a rfl

/-- The call returns, and its result passes the test. -/
def returns {ε α : Type} (x : Except ε α) (test : α → Bool) : Bool :=
  match x with
  | .ok a => test a
  | .error _ => false

/-- A computed test on a result gives the result with what was tested. -/
theorem exists_of_returns {ε α : Type} {x : Except ε α} {test : α → Bool}
    (h : returns x test = true) : ∃ a, x = .ok a ∧ test a = true := by
  cases x with
  | error e => cases h
  | ok a => exact ⟨a, rfl, h⟩

/-- A call that returns does not end in a fault. -/
theorem ne_error_of_returns {ε α : Type} {x : Except ε α} {test : α → Bool}
    (h : returns x test = true) (e : ε) : x ≠ .error e := by
  rintro rfl
  cases h

/-- The call ends in the fault `f`. -/
def faults {α : Type} (x : Except Fault α) (f : Fault) : Bool :=
  match x with
  | .ok _ => false
  | .error f' => f' == f

/-- The test for a fault. -/
theorem faults_iff {α : Type} {x : Except Fault α} {f : Fault} :
    faults x f = true ↔ x = .error f := by
  cases x with
  | error f' => simp [faults]
  | ok a => simp [faults]

/-- A machine address (`uintptr_t`). -/
abbrev Addr := BitVec 64

/-- The null pointer. -/
def nullptr : Addr := 0

end Mikanos
