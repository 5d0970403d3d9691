import Mathlib.Tactic

/-!
# Rings whose slots carry a lap bit

A producer and a consumer share `m` slots.  Positions are counted without
wrapping: position `v` lives in slot `v % m` and belongs to lap `v / m`.  Each
published slot carries one bit, the *lap bit* of its position, which is `true`
on laps 0, 2, 4, … and `false` on the others.  Slots start with the bit
`false`, so an untouched slot looks like one left over from "lap -1".

The consumer knows only its own position: it takes a slot when the slot's bit
is the lap bit of that position.  `Inv` is the invariant that makes this test
exact.  `P` counts the published positions, `C` the consumed ones, and `item v`
is what was published at position `v`:

* between `C` and `P` the slots hold exactly the published items;
* from `P` up to one lap after `C` the slots hold leftovers whose bit is wrong
  for the position they would stand for.

`Inv.test_iff` is the payoff: the consumer's bit test succeeds iff `C < P`.
The other rules say how a run keeps the invariant: `Inv.scribble` for a store
that leaves the lap bit alone, `Inv.publish` for the store that sets it, and
`Inv.consume` for the consumer moving on.
-/

namespace CycleRing

variable {β : Type*} {m : Nat} {bit : β → Bool} {slots slots' : Nat → β}
  {item item' : Nat → β} {P C : Nat}

/-- The lap bit of position `v` on a ring of `m` slots. -/
def lap (m v : Nat) : Bool := v / m % 2 == 0

/-- The first lap is stamped `true`. -/
theorem lap_of_lt {v : Nat} (h : v < m) : lap m v = true := by
  simp [lap, Nat.div_eq_of_lt h]

/-- One full lap later the bit is the other one. -/
theorem lap_add_size (hm : 0 < m) (v : Nat) : lap m (v + m) = !lap m v := by
  have hdiv : (v + m) / m = v / m + 1 := Nat.add_div_right v hm
  rcases Nat.mod_two_eq_zero_or_one (v / m) with h | h
  · have h' : (v / m + 1) % 2 = 1 := by omega
    simp [lap, hdiv, h, h']
  · have h' : (v / m + 1) % 2 = 0 := by omega
    simp [lap, hdiv, h, h']

/-- The position after `v` is the next slot of the same lap, or slot 0 of the next lap if `v`
was at the last slot. -/
theorem slot_succ (hm : 0 < m) (v : Nat) :
    (v % m + 1 < m ∧ (v + 1) % m = v % m + 1 ∧ (v + 1) / m = v / m) ∨
      (v % m + 1 = m ∧ (v + 1) % m = 0 ∧ (v + 1) / m = v / m + 1) := by
  have hv : v + 1 = m * (v / m) + (v % m + 1) := by
    have := Nat.div_add_mod v m
    omega
  have hmod : (v + 1) % m = (v % m + 1) % m := by
    rw [hv, Nat.mul_add_mod]
  have hdiv : (v + 1) / m = v / m + (v % m + 1) / m := by
    conv_lhs => rw [hv]
    rw [Nat.mul_add_div hm]
  have hlt := Nat.mod_lt v hm
  by_cases hlast : v % m + 1 < m
  · rw [Nat.mod_eq_of_lt hlast] at hmod
    rw [Nat.div_eq_of_lt hlast] at hdiv
    exact Or.inl ⟨hlast, hmod, hdiv⟩
  · have heq : v % m + 1 = m := by omega
    rw [heq, Nat.mod_self] at hmod
    rw [heq, Nat.div_self hm] at hdiv
    exact Or.inr ⟨heq, hmod, hdiv⟩

/-- Moving on inside a lap keeps the lap bit. -/
theorem lap_succ_of_lt {v : Nat} (h : v % m + 1 < m) : lap m (v + 1) = lap m v := by
  rcases slot_succ (Nat.lt_of_le_of_lt (Nat.zero_le _) h) v with ⟨-, -, hdiv⟩ | ⟨heq, -, -⟩
  · rw [lap, hdiv, lap]
  · omega

/-- Moving on from the last slot flips the lap bit, which tells an item of this lap from one of
the lap before. -/
theorem lap_succ_of_last (hm : 0 < m) {v : Nat} (h : v % m + 1 = m) :
    lap m (v + 1) = !lap m v := by
  rcases slot_succ hm v with ⟨hlt, -, -⟩ | ⟨-, -, hdiv⟩
  · omega
  · rcases Nat.mod_two_eq_zero_or_one (v / m) with h2 | h2
    · have h' : (v / m + 1) % 2 = 1 := by omega
      simp [lap, hdiv, h2, h']
    · have h' : (v / m + 1) % 2 = 0 := by omega
      simp [lap, hdiv, h2, h']

/-- Two positions less than a lap apart share a slot only when they are equal. -/
theorem slot_injective {u v : Nat} (huv : u ≤ v) (hlt : v < u + m)
    (h : u % m = v % m) : u = v := by
  obtain ⟨d, rfl⟩ : ∃ d, v = u + d := ⟨v - u, by omega⟩
  have hd : (u + d) % m = (u + 0) % m := by simpa using h.symm
  have hd' : d % m = 0 % m := Nat.ModEq.add_left_cancel' u hd
  rw [Nat.mod_eq_of_lt (by omega), Nat.zero_mod] at hd'
  omega

/-- The distance between two slots is that of their positions, when these are
less than a lap apart. -/
theorem slot_distance (hle : C ≤ P) (hlt : P < C + m) : (P % m + m - C % m) % m = P - C := by
  obtain ⟨d, rfl⟩ : ∃ d, P = C + d := ⟨P - C, by omega⟩
  have hm : 0 < m := by omega
  have hc := Nat.mod_lt C hm
  have hd : d < m := by omega
  have hsum : (C + d) % m = (C % m + d) % m := by rw [Nat.mod_add_mod]
  by_cases hwrap : C % m + d < m
  · rw [hsum, Nat.mod_eq_of_lt hwrap, show C % m + d + m - C % m = d + m by omega,
      Nat.add_mod_right, Nat.mod_eq_of_lt hd]
    omega
  · have hmod : (C % m + d) % m = C % m + d - m := by
      rw [Nat.mod_eq_sub_mod (by omega), Nat.mod_eq_of_lt (by omega)]
    rw [hsum, hmod, show C % m + d - m + m - C % m = d by omega, Nat.mod_eq_of_lt hd]
    omega

/-- The joint invariant of the slots, the published items and the two
positions. -/
structure Inv (m : Nat) (bit : β → Bool) (slots item : Nat → β) (P C : Nat) : Prop where
  consumed_le : C ≤ P
  le_capacity : P ≤ C + m
  published : ∀ v, C ≤ v → v < P → slots (v % m) = item v
  stamped : ∀ v, v < P → bit (item v) = lap m v
  stale : ∀ v, P ≤ v → v < C + m → bit (slots (v % m)) ≠ lap m v

/-- A ring whose bits are all `false` is empty: on the first lap the bit of a published slot is
`true`, so none is published. -/
theorem Inv.init (hclear : ∀ s, s < m → bit (slots s) = false) :
    Inv m bit slots item 0 0 where
  consumed_le := Nat.le_refl 0
  le_capacity := Nat.zero_le _
  published := fun v _ hv => absurd hv (Nat.not_lt_zero v)
  stamped := fun v hv => absurd hv (Nat.not_lt_zero v)
  stale := by
    intro v _ hv
    have hlt : v < m := by omega
    rw [Nat.mod_eq_of_lt hlt, hclear v hlt, lap_of_lt hlt]
    decide

/-- Only the published items matter. -/
theorem Inv.congr_item (h : Inv m bit slots item P C)
    (heq : ∀ v, v < P → item v = item' v) : Inv m bit slots item' P C where
  consumed_le := h.consumed_le
  le_capacity := h.le_capacity
  published := fun v hC hP => (h.published v hC hP).trans (heq v hP)
  stamped := fun v hP => heq v hP ▸ h.stamped v hP
  stale := h.stale

/-- **The consumer's test is exact.**  The slot at the consumer's position
carries the lap bit of that position iff something unconsumed was published. -/
theorem Inv.test_iff (hm : 0 < m) (h : Inv m bit slots item P C) :
    bit (slots (C % m)) = lap m C ↔ C < P := by
  constructor
  · intro hbit
    by_contra hle
    have hPC : P = C := by have := h.consumed_le; omega
    exact h.stale C (by omega) (by omega) hbit
  · intro hlt
    rw [h.published C (Nat.le_refl C) hlt, h.stamped C hlt]

/-- What the consumer finds when its test succeeds is the next item. -/
theorem Inv.front (h : Inv m bit slots item P C) (hlt : C < P) :
    slots (C % m) = item C :=
  h.published C (Nat.le_refl C) hlt

/-- A store into the slot being filled that does not touch its lap bit is
invisible to the consumer. -/
theorem Inv.scribble (h : Inv m bit slots item P C) (hroom : P < C + m) {x : β}
    (hbit : bit x = bit (slots (P % m))) :
    Inv m bit (Function.update slots (P % m) x) item P C where
  consumed_le := h.consumed_le
  le_capacity := h.le_capacity
  published := by
    intro v hC hP
    have hne : v % m ≠ P % m := fun heq =>
      absurd (slot_injective (Nat.le_of_lt hP) (by omega) heq) (by omega)
    rw [Function.update_of_ne hne, h.published v hC hP]
  stamped := h.stamped
  stale := by
    intro v hP hC
    by_cases heq : v % m = P % m
    · rw [heq, Function.update_self, hbit, ← heq]
      exact h.stale v hP hC
    · rw [Function.update_of_ne heq]
      exact h.stale v hP hC

/-- **The store that sets the lap bit publishes the slot.** If there is room, the slot at the
producer's position holds nothing unread, and with its bit set the consumer finds one item more.
-/
theorem Inv.publish (h : Inv m bit slots item P C) (hroom : P < C + m) {x : β}
    (hbit : bit x = lap m P) (hitem : item P = x) :
    Inv m bit (Function.update slots (P % m) x) item (P + 1) C where
  consumed_le := Nat.le_succ_of_le h.consumed_le
  le_capacity := hroom
  published := by
    intro v hC hP
    by_cases heq : v = P
    · rw [heq, Function.update_self, hitem]
    · have hne : v % m ≠ P % m := fun hmod =>
        heq (slot_injective (by omega) (by omega) hmod)
      rw [Function.update_of_ne hne, h.published v hC (by omega)]
  stamped := by
    intro v hv
    by_cases heq : v = P
    · rw [heq, hitem, hbit]
    · exact h.stamped v (by omega)
  stale := by
    intro v hP hC
    have hCP := h.consumed_le
    have hne : v % m ≠ P % m := fun hmod =>
      absurd (slot_injective (by omega) (by omega) hmod.symm) (by omega)
    rw [Function.update_of_ne hne]
    exact h.stale v (by omega) hC

/-- The consumer moves past an item: the slot it leaves becomes a leftover of
the lap just read, so it is stale for the next one. -/
theorem Inv.consume (hm : 0 < m) (h : Inv m bit slots item P C) (hlt : C < P) :
    Inv m bit slots item P (C + 1) where
  consumed_le := hlt
  le_capacity := by have := h.le_capacity; omega
  published := fun v hC hP => h.published v (by omega) hP
  stamped := h.stamped
  stale := by
    intro v hP hC
    by_cases heq : v = C + m
    · subst heq
      rw [Nat.add_mod_right, h.front hlt, h.stamped C hlt, lap_add_size hm]
      cases lap m C <;> decide
    · exact h.stale v hP (by omega)

/-! ## Histories -/

/-- What was received is a prefix of what was sent, and stays one when the next item in the
order of sending arrives. -/
theorem prefix_snoc {α : Type*} {xs ys : List α} {y : α} (h : xs <+: ys)
    (hy : ys[xs.length]? = some y) : xs ++ [y] <+: ys := by
  obtain ⟨zs, rfl⟩ := h
  rw [List.getElem?_append_right (Nat.le_refl _), Nat.sub_self] at hy
  cases zs with
  | nil => cases hy
  | cons z zs =>
      obtain rfl : z = y := Option.some.inj hy
      exact ⟨zs, by simp⟩

end CycleRing
