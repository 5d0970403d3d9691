import Mathlib.Tactic

/-!
# Rounding addresses up to a power of two

`roundUp a k` is the least multiple of `k` at or above `a`.  The machine
computes it with a mask: for a power of two `k` the mask `~(k - 1)` clears the
low bits of `a + k - 1`.  `mask_toNat` is the bridge between the two.
-/

namespace Align

/-- The least multiple of `k` that is at least `a`. -/
def roundUp (a k : Nat) : Nat := (a + k - 1) / k * k

/-- Rounding up never goes down. -/
theorem le_roundUp {a k : Nat} (hk : 0 < k) : a ≤ roundUp a k := by
  have hdiv := Nat.div_add_mod (a + k - 1) k
  have hmod := Nat.mod_lt (a + k - 1) hk
  have hcomm := Nat.mul_comm k ((a + k - 1) / k)
  unfold roundUp
  omega

/-- Rounding up ends at a multiple. -/
theorem dvd_roundUp (a k : Nat) : k ∣ roundUp a k := Nat.dvd_mul_left k _

/-- Rounding up stops before it has gone a whole step. -/
theorem roundUp_lt {a k : Nat} (hk : 0 < k) : roundUp a k < a + k := by
  have hle := Nat.div_mul_le_self (a + k - 1) k
  unfold roundUp
  omega

/-- `roundUp a k` is the least multiple of `k` from `a` on: any other multiple that is not below
`a` is not below it. -/
theorem roundUp_least {a b k : Nat} (hab : a ≤ b) (hb : k ∣ b) : roundUp a k ≤ b := by
  obtain ⟨c, rfl⟩ := hb
  rcases Nat.eq_zero_or_pos k with rfl | hk
  · simp [roundUp]
  · have hlt : (a + k - 1) / k ≤ c := by
      apply Nat.le_of_lt_succ
      rw [Nat.div_lt_iff_lt_mul hk, Nat.succ_mul, Nat.mul_comm c k]
      omega
    calc roundUp a k = (a + k - 1) / k * k := rfl
      _ ≤ c * k := Nat.mul_le_mul_right k hlt
      _ = k * c := Nat.mul_comm c k

/-- A multiple of `k` is its own rounding. -/
theorem roundUp_of_dvd {a k : Nat} (hk : 0 < k) (h : k ∣ a) : roundUp a k = a :=
  Nat.le_antisymm (roundUp_least (Nat.le_refl a) h) (le_roundUp hk)

/-- Of two powers of two the smaller divides the larger. -/
theorem pow_two_dvd_or_dvd {a b : Nat} (ha : ∃ i, a = 2 ^ i) (hb : ∃ j, b = 2 ^ j) :
    a ∣ b ∨ b ∣ a := by
  obtain ⟨i, rfl⟩ := ha
  obtain ⟨j, rfl⟩ := hb
  rcases Nat.le_total i j with h | h
  · exact Or.inl (Nat.pow_dvd_pow 2 h)
  · exact Or.inr (Nat.pow_dvd_pow 2 h)

/-- Clearing the low `i` bits of a word rounds its number down to a multiple of `2 ^ i`, which
is how a mask aligns an address. -/
theorem and_not_toNat {n : Nat} (x m : BitVec n) {i : Nat} (hm : m.toNat = 2 ^ i - 1) :
    (x &&& ~~~m).toNat = x.toNat / 2 ^ i * 2 ^ i := by
  have hbits : x &&& ~~~m = (x >>> i) <<< i := by
    apply BitVec.eq_of_getLsbD_eq
    intro j hj
    have hmj : m.getLsbD j = decide (j < i) := by
      rw [BitVec.getLsbD, hm, Nat.testBit_two_pow_sub_one]
    rw [BitVec.getLsbD_and, BitVec.getLsbD_not, hmj, BitVec.getLsbD_shiftLeft,
      BitVec.getLsbD_ushiftRight]
    by_cases hji : j < i
    · simp [hji]
    · have hadd : i + (j - i) = j := by omega
      simp [hj, hji, hadd]
  rw [hbits, BitVec.toNat_shiftLeft, BitVec.toNat_ushiftRight, Nat.shiftRight_eq_div_pow,
    Nat.shiftLeft_eq, Nat.mod_eq_of_lt]
  exact Nat.lt_of_le_of_lt (Nat.div_mul_le_self _ _) x.isLt

end Align
