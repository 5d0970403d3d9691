import Mathlib.Tactic

/-!
# A cursor that jumps

A cursor over data in which every item says how long it is: `jump p` is the
length found at position `p`, and `position jump k` is where the cursor is after
`k` jumps from 0.  Nothing is assumed about the lengths.

A length 0 stops the cursor for good (`position_stall`).  Up to then it moves by
at least one each time (`le_position`), so a cursor that stays below some bound
forever has come to such a length (`exists_stall`).
-/

namespace Mikanos.Cursor

/-- The position after so many jumps. -/
def position (jump : Nat → Nat) : Nat → Nat
  | 0 => 0
  | k + 1 => position jump k + jump (position jump k)

variable {jump : Nat → Nat}

/-- The cursor never moves back. -/
theorem position_mono {k l : Nat} (h : k ≤ l) : position jump k ≤ position jump l := by
  induction h with
  | refl => exact Nat.le_refl _
  | step _ ih => exact ih.trans (Nat.le_add_right _ _)

/-- **A stalled cursor stays where it is**: a jump of zero is the same jump again, so it reads
the same place for ever. -/
theorem position_stall {k : Nat} (h : jump (position jump k) = 0) :
    ∀ j, position jump (k + j) = position jump k := by
  intro j
  induction j with
  | zero => rfl
  | succ j ih =>
      calc position jump (k + j + 1)
          = position jump (k + j) + jump (position jump (k + j)) := rfl
        _ = position jump k + jump (position jump k) := by rw [ih]
        _ = position jump k := by rw [h, Nat.add_zero]

/-- Until it stalls, the cursor moves by at least one in each jump, so after `k` jumps it has
come at least `k` far. -/
theorem le_position {k : Nat} (h : ∀ j, j < k → jump (position jump j) ≠ 0) :
    k ≤ position jump k := by
  induction k with
  | zero => exact Nat.zero_le _
  | succ k ih =>
      have hbefore := ih fun j hj => h j (Nat.lt_succ_of_lt hj)
      have hmoves := h k (Nat.lt_succ_self k)
      show k + 1 ≤ position jump k + jump (position jump k)
      omega

/-- **A cursor that stays below a bound has stalled.** -/
theorem exists_stall {bound : Nat} (h : ∀ k, position jump k ≤ bound) :
    ∃ k, jump (position jump k) = 0 := by
  by_contra hnone
  push Not at hnone
  have hbeyond : bound + 1 ≤ position jump (bound + 1) := le_position fun j _ => hnone j
  have hbound := h (bound + 1)
  omega

/-- A walk takes every step, or there is a first one that it does not take. -/
theorem forever_or_first (Takes : Nat → Prop) :
    (∀ k, Takes k) ∨ ∃ k, (∀ j, j < k → Takes j) ∧ ¬ Takes k := by
  classical
  by_cases h : ∃ k, ¬ Takes k
  · exact Or.inr ⟨Nat.find h, fun j hj => not_not.mp (Nat.find_min h hj), Nat.find_spec h⟩
  · exact Or.inl fun k => not_not.mp fun hk => h ⟨k, hk⟩

end Mikanos.Cursor
