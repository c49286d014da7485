import ComplexCalculator.Decimal.Numeral
import ComplexCalculator.Proofs.Binary64.Nearest

namespace ComplexCalculator.Decimal.Numeral

open Binary64

theorem pow_pos_ten (power : Nat) : 0 < 10 ^ power := Nat.pow_pos (by decide)

theorem lt_pow_length (digits : Nat) : digits < 10 ^ (Nat.toDigits 10 digits).length :=
  (Nat.length_toDigits_le_iff (by decide) Nat.length_toDigits_pos).mp (Nat.le_refl _)

theorem pow_length_le {digits : Nat} (positive : digits ≠ 0) :
    10 ^ ((Nat.toDigits 10 digits).length - 1) ≤ digits := by
  by_contra less
  by_cases single : (Nat.toDigits 10 digits).length - 1 = 0
  · rw [single] at less
    omega
  · have fits := (Nat.length_toDigits_le_iff (by decide) (Nat.pos_of_ne_zero single)).mpr
      (Nat.lt_of_not_le less)
    omega

theorem nearestWord_tiny {digits exponent : Nat}
    (tiny : (Nat.toDigits 10 digits).length + 330 < exponent) :
    nearestWord digits (10 ^ exponent) = 0 := by
  apply Nat.le_zero.mp
  apply nearestWord_le (pow_pos_ten _)
  have bound : 10 ^ (Nat.toDigits 10 digits).length * 10 ^ 330 ≤ 10 ^ exponent := by
    rw [← Nat.pow_add]
    exact Nat.pow_le_pow_right (by decide) (Nat.le_of_lt tiny)
  have scale : 2 * unitsPerOne ≤ 10 ^ 330 := by decide +kernel
  calc 2 * (digits * unitsPerOne) = digits * (2 * unitsPerOne) := by ring
    _ < 10 ^ (Nat.toDigits 10 digits).length * (2 * unitsPerOne) :=
      Nat.mul_lt_mul_of_pos_right (lt_pow_length digits)
        (Nat.mul_pos (by decide) unitsPerOne_pos)
    _ ≤ 10 ^ (Nat.toDigits 10 digits).length * 10 ^ 330 := Nat.mul_le_mul_left _ scale
    _ ≤ 10 ^ exponent := bound
    _ = 10 ^ exponent * (units 0 + units (0 + 1)) := (Nat.mul_one _).symm

theorem nearestWord_huge {num den : Nat} (positive : 0 < den) (huge : den * 10 ^ 310 ≤ num) :
    nearestWord num den = infinityWord := by
  apply Nat.le_antisymm (nearestWord_le_infinityWord num den)
  apply le_nearestWord positive (Nat.le_refl _)
  have scale : units infinityWord ≤ 10 ^ 310 * unitsPerOne := by decide +kernel
  calc den * units infinityWord ≤ den * (10 ^ 310 * unitsPerOne) := Nat.mul_le_mul_left den scale
    _ = den * 10 ^ 310 * unitsPerOne := (Nat.mul_assoc den _ _).symm
    _ ≤ num * unitsPerOne := Nat.mul_le_mul_right _ huge

/-- The nearest double to a decimal, whatever its size. -/
theorem nearestToDecimal_eq (digits : Nat) (exponent : Int) :
    nearestToDecimal digits exponent =
      nearestWord (digits * 10 ^ exponent.toNat) (10 ^ (-exponent).toNat) := by
  unfold nearestToDecimal
  by_cases zero : digits = 0
  · subst zero
    rw [Nat.zero_mul, nearestWord_zero (pow_pos_ten _)]
    simp
  · simp only [zero, false_or]
    by_cases tiny : ((Nat.toDigits 10 digits).length : Int) + exponent < -330
    · have positive : exponent.toNat = 0 := by omega
      rw [if_pos tiny, positive, Nat.pow_zero, Nat.mul_one, nearestWord_tiny (by omega)]
    · rw [if_neg tiny]
      by_cases huge : 310 < ((Nat.toDigits 10 digits).length : Int) + exponent
      · rw [if_pos huge]
        symm
        apply nearestWord_huge (pow_pos_ten _)
        have size : (-exponent).toNat + 310 ≤
            (Nat.toDigits 10 digits).length - 1 + exponent.toNat := by omega
        calc 10 ^ (-exponent).toNat * 10 ^ 310 = 10 ^ ((-exponent).toNat + 310) := by
              rw [Nat.pow_add]
          _ ≤ 10 ^ ((Nat.toDigits 10 digits).length - 1 + exponent.toNat) :=
              Nat.pow_le_pow_right (by decide) size
          _ = 10 ^ ((Nat.toDigits 10 digits).length - 1) * 10 ^ exponent.toNat := Nat.pow_add 10 _ _
          _ ≤ digits * 10 ^ exponent.toNat := Nat.mul_le_mul_right _ (pow_length_le zero)
      · rw [if_neg huge]
        cases exponent with
        | ofNat power => simp
        | negSucc power => simp

end ComplexCalculator.Decimal.Numeral
