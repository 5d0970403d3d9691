import Mathlib.Data.Finmap
import Mathlib.Tactic
import Mikanos.Lib.DataRefinement
import Mikanos.Usb.ArrayMap

/-!
# `ArrayMap` is a finite map

The specification of `ArrayMap` is Mathlib's `Finmap` with `lookup`, `insert` and
`erase`.  A table represents a finite map when its slots in use hold the entries
of the map, in any order: `Delete` leaves a hole and `Put` fills the first one, so
the order of the slots says nothing.  A `Finmap` has no key twice, and neither has
a table that represents one.

`simulates` is the step: a call on the table does what it does on the map,
provided that `Put` gets a key that is not there and finds room.
`refines_finmap` says it of every sequence of such calls from the empty map.
-/

namespace Mikanos.Usb

open DataRefinement

/-- The finite maps from keys to values. -/
abbrev FiniteMap (K V : Type) := Finmap fun _ : K => V

/-- A call of one of the three member functions. -/
inductive MapCall (K V : Type) where
  | get (key : K)
  | put (key : K) (value : V)
  | delete (key : K)
  deriving DecidableEq, Repr

/-- What a call returns: `Put` and `Delete` are `void`. -/
inductive MapAnswer (V : Type) where
  | found (value : Option V)
  | void
  deriving DecidableEq, Repr

variable {K V : Type} {N : Nat}

section Calls

variable [DecidableEq K]

/-- A call on the table. -/
def ArrayMap.call (m : ArrayMap K V N) : MapCall K V → MapAnswer V × ArrayMap K V N
  | .get key => (.found (m.get key), m)
  | .put key value => (.void, m.put key value)
  | .delete key => (.void, m.delete key)

/-- The call on the finite map. -/
def FiniteMap.call (σ : FiniteMap K V) : MapCall K V → MapAnswer V × FiniteMap K V
  | .get key => (.found (σ.lookup key), σ)
  | .put key value => (.void, σ.insert key value)
  | .delete key => (.void, σ.erase key)

/-- The contract of the caller: `Put` only with a key that is not present, and
only while fewer than `N` are. -/
def FiniteMap.Allows (N : Nat) (σ : FiniteMap K V) : MapCall K V → Prop
  | .put key _ => key ∉ σ ∧ σ.keys.card < N
  | _ => True

instance (N : Nat) (σ : FiniteMap K V) : ∀ c, Decidable (σ.Allows N c)
  | .put key _ => inferInstanceAs (Decidable (key ∉ σ ∧ σ.keys.card < N))
  | .get _ => isTrue trivial
  | .delete _ => isTrue trivial

end Calls

namespace ArrayMap

/-- An entry of a table as an entry of a finite map. -/
def binding (e : K × V) : Sigma fun _ : K => V := ⟨e.1, e.2⟩

/-- The slots in use hold the entries of the map. -/
def Represents (m : ArrayMap K V N) (σ : FiniteMap K V) : Prop :=
  σ.entries = Multiset.ofList (m.entries.map binding)

section Represents

variable {m : ArrayMap K V N} {σ : FiniteMap K V}

theorem represents_empty (zero : V) : (empty zero : ArrayMap K V N).Represents ∅ := by
  rw [Represents, entries_empty]
  rfl

theorem Represents.keys_val (h : m.Represents σ) :
    σ.keys.val = Multiset.ofList (m.entries.map Prod.fst) := by
  have hfst : (m.entries.map binding).map Sigma.fst = m.entries.map Prod.fst := List.map_map
  change σ.entries.keys = _
  rw [h, Multiset.coe_keys, List.keys, hfst]

/-- No key is in two slots. -/
theorem Represents.nodup (h : m.Represents σ) : (m.entries.map Prod.fst).Nodup := by
  have hkeys : σ.keys.val.Nodup := σ.keys.nodup
  rw [h.keys_val] at hkeys
  exact hkeys

/-- As many slots are in use as keys are present: no two slots in use hold the same key. -/
theorem Represents.card_keys (h : m.Represents σ) : σ.keys.card = m.entries.length := by
  rw [Finset.card, h.keys_val, Multiset.coe_card, List.length_map]

variable [DecidableEq K]

/-- **`Get` is `lookup`**: a table that represents a finite map finds for every key what the map
has there. -/
theorem Represents.get_eq (h : m.Represents σ) (key : K) : m.get key = σ.lookup key := by
  apply Option.ext
  intro value
  have hentry : (⟨key, value⟩ : Sigma fun _ : K => V) ∈ σ.entries ↔ (key, value) ∈ m.entries := by
    rw [h, Multiset.mem_coe, List.mem_map]
    constructor
    · rintro ⟨e, he, heq⟩
      cases heq
      exact he
    · intro he
      exact ⟨(key, value), he, rfl⟩
  rw [Finmap.lookup_eq_some_iff, hentry]
  exact get_eq_some_iff h.nodup

/-- **`Put` is `insert`** of a key that is not there, while there is room. -/
theorem Represents.put (h : m.Represents σ) {key : K} (value : V) (hkey : key ∉ σ)
    (hroom : σ.keys.card < N) : (m.put key value).Represents (σ.insert key value) := by
  rw [h.card_keys] at hroom
  have hslots : ((m.put key value).entries.map binding).Perm
      (binding (key, value) :: m.entries.map binding) := (entries_put m key value hroom).map binding
  rw [Represents, Finmap.entries_insert_of_notMem hkey, h, Multiset.cons_coe]
  exact Multiset.coe_eq_coe.mpr hslots.symm

/-- **`Delete` is `erase`**: afterwards the table represents the map without the key, whether
the key was present or not. -/
theorem Represents.delete (h : m.Represents σ) (key : K) :
    (m.delete key).Represents (σ.erase key) := by
  have hslots : (m.delete key).entries.map binding = (m.entries.map binding).kerase key := by
    rw [entries_delete, List.kerase, List.eraseP_map]
    congr 2
    funext e
    exact decide_eq_decide.mpr eq_comm
  induction σ using Finmap.induction_on with
  | H s =>
      have hperm : s.entries.Perm (m.entries.map binding) := Multiset.coe_eq_coe.mp h
      rw [Represents, hslots, Finmap.erase_toFinmap]
      exact Multiset.coe_eq_coe.mpr (hperm.kerase s.nodupKeys)

end Represents

section Sequences

variable [DecidableEq K]

/-- **One call** on a table does what it does on the finite map, as long as no key is put that
is present and no more keys than there are slots. -/
theorem simulates : Simulates Represents (FiniteMap.Allows N)
    (call : ArrayMap K V N → MapCall K V → MapAnswer V × ArrayMap K V N) FiniteMap.call where
  answer := by
    intro m σ c h _
    cases c with
    | get key => exact congrArg MapAnswer.found (h.get_eq key)
    | put key value => rfl
    | delete key => rfl
  next := by
    intro m σ c h hallowed
    cases c with
    | get key => exact h
    | put key value => exact h.put value hallowed.1 hallowed.2
    | delete key => exact h.delete key

/-- After any sequence of allowed calls the table represents the map. -/
theorem represents_after (zero : V) {calls : List (MapCall K V)}
    (h : Permitted (FiniteMap.Allows N) FiniteMap.call ∅ calls) :
    (after call (empty zero : ArrayMap K V N) calls).Represents (after FiniteMap.call ∅ calls) :=
  simulates.after_related (represents_empty zero) h

/-- An allowed call other than its own `Delete` leaves a present key with its value, so an entry
lives from its `Put` to its `Delete`. -/
theorem lookup_call {σ : FiniteMap K V} {key : K} {value : V} {c : MapCall K V}
    (hvalue : σ.lookup key = some value) (hallowed : σ.Allows N c) (hc : c ≠ .delete key) :
    (FiniteMap.call σ c).2.lookup key = some value := by
  cases c with
  | get key' => exact hvalue
  | put key' value' =>
      have hne : key ≠ key' := by
        rintro rfl
        exact hallowed.1 (Finmap.mem_of_lookup_eq_some hvalue)
      exact (Finmap.lookup_insert_of_ne σ hne).trans hvalue
  | delete key' =>
      have hne : key ≠ key' := by
        rintro rfl
        exact hc rfl
      exact (Finmap.lookup_erase_ne hne).trans hvalue

/-- **A stored key stays retrievable** through every allowed sequence that does
not delete it, whatever else is deleted and whichever holes are filled. -/
theorem get_after {zero value : V} {key : K} {calls calls' : List (MapCall K V)}
    (h : Permitted (FiniteMap.Allows N) FiniteMap.call ∅ (calls ++ calls'))
    (hvalue : (after call (empty zero : ArrayMap K V N) calls).get key = some value)
    (hkept : .delete key ∉ calls') :
    (after call (empty zero : ArrayMap K V N) (calls ++ calls')).get key = some value := by
  obtain ⟨hbefore, hrest⟩ := permitted_append.mp h
  rw [(represents_after zero hbefore).get_eq] at hvalue
  rw [(represents_after zero h).get_eq, after_append]
  refine after_induction (fun σ => σ.lookup key = some value) (fun c => c ≠ .delete key)
    (fun σ c => lookup_call) hvalue hrest ?_
  rintro c hc rfl
  exact hkept hc

/-- **`ArrayMap` refines a finite map.**  In every sequence of calls from the
empty table in which `Put` gets only keys that are not present, with fewer than
`N` present: the answers are those of the map; at its end `Get` is `lookup` for
every key, no key is in two slots, and each key stored before a `Delete` of
another one is found with its value until it is deleted itself. -/
theorem refines_finmap (zero : V) (calls : List (MapCall K V))
    (h : Permitted (FiniteMap.Allows N) FiniteMap.call ∅ calls) :
    answers call (empty zero : ArrayMap K V N) calls = answers FiniteMap.call ∅ calls ∧
      (∀ key, (after call (empty zero : ArrayMap K V N) calls).get key =
        (after FiniteMap.call ∅ calls).lookup key) ∧
      ((after call (empty zero : ArrayMap K V N) calls).entries.map Prod.fst).Nodup ∧
      ∀ (earlier later : List (MapCall K V)) (deleted key : K) (value : V),
        calls = earlier ++ .delete deleted :: later →
        (after call (empty zero : ArrayMap K V N) earlier).get key = some value →
        key ≠ deleted → .delete key ∉ later →
        (after call (empty zero : ArrayMap K V N) calls).get key = some value := by
  have hrepresents := represents_after zero h
  refine ⟨simulates.answers_eq (represents_empty zero) h, hrepresents.get_eq, hrepresents.nodup, ?_⟩
  intro earlier later deleted key value hcalls hvalue hne hkept
  subst hcalls
  refine get_after h hvalue ?_
  intro hmem
  rcases List.mem_cons.mp hmem with heq | hlater
  · exact hne (MapCall.delete.inj heq)
  · exact hkept hlater

/-- Two transfers as `setup_stage_map_` sees them, the first completed, then a
third one that goes to the first slot. -/
def threeTransfers : List (MapCall (BitVec 64) (BitVec 64)) :=
  [.put 0x1020 0x1000, .put 0x1050 0x1030, .delete 0x1020, .put 0x1080 0x1060, .get 0x1050]

/-- The second of two transfers is still found behind the hole that the first has left, and
after a third has been put into it. -/
theorem refines_finmap_transfers :
    (after call (empty 0 : ArrayMap (BitVec 64) (BitVec 64) 16) threeTransfers).get 0x1050 =
      some 0x1030 :=
  (refines_finmap 0 threeTransfers (by decide)).2.2.2
    [.put 0x1020 0x1000, .put 0x1050 0x1030] [.put 0x1080 0x1060, .get 0x1050]
    0x1020 0x1050 0x1030 rfl (by decide) (by decide) (by decide)

end Sequences

end ArrayMap

end Mikanos.Usb
