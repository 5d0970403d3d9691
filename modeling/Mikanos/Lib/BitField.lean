import Mathlib.Tactic

/-!
# Bit fields of machine words

A C bit-field is a window `lo .. lo + len - 1` of a fixed-width word.  `field`
reads such a window and `setField` replaces it, leaving every other bit alone.
All later layouts are built from these two operations, so reading a record
back reduces to two rules: a field just written reads as the value written
(`field_setField_same`), and a field disjoint from the one written reads as it
did before (`field_setField_of_disjoint`).
-/

namespace BitField

variable {n : Nat}

/-- The bits `lo .. lo + len - 1` of `w`. -/
def field (w : BitVec n) (lo len : Nat) : BitVec len :=
  w.extractLsb' lo len

/-- `w` with the bits `lo .. lo + len - 1` replaced by `v`. -/
def setField (w : BitVec n) (lo : Nat) {len : Nat} (v : BitVec len) : BitVec n :=
  (w &&& ~~~((BitVec.allOnes len).setWidth n <<< lo)) ||| (v.setWidth n <<< lo)

/-- A field read bit by bit. -/
theorem getLsbD_field (w : BitVec n) (lo len i : Nat) :
    (field w lo len).getLsbD i = (decide (i < len) && w.getLsbD (lo + i)) := by
  simp [field, BitVec.getLsbD_extractLsb']

/-- A word after a field store, bit by bit: the window comes from the value,
everything else from the old word. -/
theorem getLsbD_setField (w : BitVec n) (lo : Nat) {len : Nat} (v : BitVec len)
    (i : Nat) :
    (setField w lo v).getLsbD i =
      if i < n ∧ lo ≤ i ∧ i < lo + len then v.getLsbD (i - lo) else w.getLsbD i := by
  by_cases hin : i < n
  · by_cases hlo : lo ≤ i
    · by_cases hhi : i < lo + len
      · have hw : i - lo < len := by omega
        simp [setField, hin, hlo, hhi, hw, Nat.not_lt.mpr hlo]
      · have hw : ¬ i - lo < len := by omega
        have hv : v.getLsbD (i - lo) = false := BitVec.getLsbD_of_ge v _ (by omega)
        simp [setField, hin, hhi, hw, hv, Nat.not_lt.mpr hlo]
    · simp [setField, hin, hlo, Nat.lt_of_not_le hlo]
  · have hw : w.getLsbD i = false := BitVec.getLsbD_of_ge w i (by omega)
    have hs : (setField w lo v).getLsbD i = false := BitVec.getLsbD_of_ge _ i (by omega)
    simp [hin, hw, hs]

/-- A field that fits the word reads back the value stored in it. -/
theorem field_setField_same (w : BitVec n) (lo : Nat) {len : Nat} (v : BitVec len)
    (hfit : lo + len ≤ n) : field (setField w lo v) lo len = v := by
  apply BitVec.eq_of_getLsbD_eq
  intro i hi
  rw [getLsbD_field, getLsbD_setField]
  have hwin : lo + i < n ∧ lo ≤ lo + i ∧ lo + i < lo + len := by omega
  simp [hwin, hi]

/-- Storing a field does not disturb a disjoint one. -/
theorem field_setField_of_disjoint (w : BitVec n) (lo lo' : Nat) {len len' : Nat}
    (v : BitVec len) (hdis : lo' + len' ≤ lo ∨ lo + len ≤ lo') :
    field (setField w lo v) lo' len' = field w lo' len' := by
  apply BitVec.eq_of_getLsbD_eq
  intro i hi
  rw [getLsbD_field, getLsbD_setField, getLsbD_field]
  have hout : ¬ (lo' + i < n ∧ lo ≤ lo' + i ∧ lo' + i < lo + len) := by omega
  rw [if_neg hout]

/-- Two words that agree on a field's window have the same field. -/
theorem field_congr {w u : BitVec n} {lo len : Nat}
    (h : ∀ i, lo ≤ i → i < lo + len → w.getLsbD i = u.getLsbD i) :
    field w lo len = field u lo len := by
  apply BitVec.eq_of_getLsbD_eq
  intro i hi
  rw [getLsbD_field, getLsbD_field, h (lo + i) (by omega) (by omega)]

end BitField
