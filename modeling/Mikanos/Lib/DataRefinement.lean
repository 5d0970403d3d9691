import Mathlib.Tactic

/-!
# Refinement of a data type by another

A data type is a state and a function that takes a call to its answer and to the
next state.  Its caller may have to keep to a contract: `Permitted` is a guard on
state and call that holds along a sequence of calls, each at the state reached
by the ones before.

`Simulates` is what one call of the implementation has to do: give the answer
of the specification and keep the relation of the two states, when the guard of
the specification allows the call.  `Simulates.answers_eq` and
`Simulates.after_related` extend it to every permitted sequence.  Facts about the
specification alone go through sequences by `after_induction`.
-/

namespace DataRefinement

variable {Call Answer S T : Type*}

/-- The state after a sequence of calls. -/
def after (call : S → Call → Answer × S) : S → List Call → S
  | s, [] => s
  | s, c :: calls => after call (call s c).2 calls

/-- The answers to a sequence of calls. -/
def answers (call : S → Call → Answer × S) : S → List Call → List Answer
  | _, [] => []
  | s, c :: calls => (call s c).1 :: answers call (call s c).2 calls

/-- The guard holds at each call of a sequence. -/
def Permitted (guard : S → Call → Prop) (call : S → Call → Answer × S) : S → List Call → Prop
  | _, [] => True
  | s, c :: calls => guard s c ∧ Permitted guard call (call s c).2 calls

/-- Whether a sequence is permitted is found by running it. -/
instance instDecidablePermitted (guard : S → Call → Prop) (call : S → Call → Answer × S)
    [∀ s c, Decidable (guard s c)] : ∀ s calls, Decidable (Permitted guard call s calls)
  | _, [] => isTrue trivial
  | s, c :: calls =>
      have := instDecidablePermitted guard call (call s c).2 calls
      inferInstanceAs (Decidable (guard s c ∧ Permitted guard call (call s c).2 calls))

/-- The state after two sequences of calls. -/
theorem after_append (call : S → Call → Answer × S) (s : S) (calls calls' : List Call) :
    after call s (calls ++ calls') = after call (after call s calls) calls' := by
  induction calls generalizing s with
  | nil => rfl
  | cons c calls ih => exact ih (call s c).2

/-- A sequence is permitted if its parts are, each where it begins. -/
theorem permitted_append {guard : S → Call → Prop} {call : S → Call → Answer × S} {s : S}
    {calls calls' : List Call} : Permitted guard call s (calls ++ calls') ↔
      Permitted guard call s calls ∧ Permitted guard call (after call s calls) calls' := by
  induction calls generalizing s with
  | nil => exact ⟨fun h => ⟨trivial, h⟩, fun h => h.2⟩
  | cons c calls ih => exact (and_congr_right fun _ => ih).trans and_assoc.symm

/-- **Sequence rule**: what each permitted call of some kind keeps holds after
permitted calls of this kind. -/
theorem after_induction {guard : S → Call → Prop} {call : S → Call → Answer × S} (P : S → Prop)
    (kind : Call → Prop) (hstep : ∀ s c, P s → guard s c → kind c → P (call s c).2) {s : S}
    {calls : List Call} (hs : P s) (hpermitted : Permitted guard call s calls)
    (hkind : ∀ c ∈ calls, kind c) : P (after call s calls) := by
  induction calls generalizing s with
  | nil => exact hs
  | cons c calls ih =>
      obtain ⟨hguard, hrest⟩ := hpermitted
      have hnext : P (call s c).2 := hstep s c hs hguard (hkind c List.mem_cons_self)
      exact ih hnext hrest fun c' hc' => hkind c' (List.mem_cons_of_mem c hc')

/-- What one call of the implementation does, next to the specification. -/
structure Simulates (related : S → T → Prop) (guard : T → Call → Prop)
    (call : S → Call → Answer × S) (spec : T → Call → Answer × T) : Prop where
  answer : ∀ {s t c}, related s t → guard t c → (call s c).1 = (spec t c).1
  next : ∀ {s t c}, related s t → guard t c → related (call s c).2 (spec t c).2

section Sequences

variable {related : S → T → Prop} {guard : T → Call → Prop} {call : S → Call → Answer × S}
  {spec : T → Call → Answer × T} {s : S} {t : T} {calls : List Call}

/-- **The states stay related.** -/
theorem Simulates.after_related (h : Simulates related guard call spec) (hst : related s t)
    (hpermitted : Permitted guard spec t calls) :
    related (after call s calls) (after spec t calls) := by
  induction calls generalizing s t with
  | nil => exact hst
  | cons c calls ih =>
      obtain ⟨hguard, hrest⟩ := hpermitted
      exact ih (h.next hst hguard) hrest

/-- **The answers are those of the specification.** -/
theorem Simulates.answers_eq (h : Simulates related guard call spec) (hst : related s t)
    (hpermitted : Permitted guard spec t calls) :
    answers call s calls = answers spec t calls := by
  induction calls generalizing s t with
  | nil => rfl
  | cons c calls ih =>
      obtain ⟨hguard, hrest⟩ := hpermitted
      rw [answers, answers, h.answer hst hguard, ih (h.next hst hguard) hrest]

end Sequences

end DataRefinement
