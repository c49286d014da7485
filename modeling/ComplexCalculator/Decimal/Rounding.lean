namespace ComplexCalculator.Decimal

/-- The integer nearest to `num / den`; an exact half goes to the even neighbour. -/
def roundDiv (num den : Nat) : Nat :=
  let quotient := num / den
  let remainder := num % den
  if 2 * remainder < den then quotient
  else if den < 2 * remainder then quotient + 1
  else quotient + quotient % 2

/-- The rounded value exceeds the quotient by at most one half. -/
theorem roundDiv_le (num : Nat) {den : Nat} (positive : 0 < den) :
    2 * (roundDiv num den * den) ≤ 2 * num + den := by
  have split := Nat.div_add_mod num den
  have below := Nat.mod_lt num positive
  have parity := Nat.mod_lt (num / den) (by decide : 0 < 2)
  unfold roundDiv
  generalize num / den = quotient at *
  generalize num % den = remainder at *
  simp only
  split
  · rw [Nat.mul_comm quotient den]; omega
  · split
    · rw [Nat.add_mul, Nat.mul_comm quotient den]; omega
    · have bound : quotient % 2 * den ≤ 1 * den := Nat.mul_le_mul_right _ (by omega)
      rw [Nat.add_mul, Nat.mul_comm quotient den]; omega

/-- The rounded value falls short of the quotient by at most one half. -/
theorem le_roundDiv (num : Nat) {den : Nat} (positive : 0 < den) :
    2 * num ≤ 2 * (roundDiv num den * den) + den := by
  have split := Nat.div_add_mod num den
  have below := Nat.mod_lt num positive
  unfold roundDiv
  generalize num / den = quotient at *
  generalize num % den = remainder at *
  simp only
  split
  · rw [Nat.mul_comm quotient den]; omega
  · split
    · rw [Nat.add_mul, Nat.mul_comm quotient den]; omega
    · rw [Nat.add_mul, Nat.mul_comm quotient den]; omega

/-- When the quotient lies exactly between two integers the even one is taken. -/
theorem roundDiv_even {num den : Nat} (positive : 0 < den)
    (half : 2 * num + den = 2 * (roundDiv num den * den) ∨
      2 * num = 2 * (roundDiv num den * den) + den) :
    roundDiv num den % 2 = 0 := by
  have split := Nat.div_add_mod num den
  have below := Nat.mod_lt num positive
  unfold roundDiv at half ⊢
  generalize num / den = quotient at *
  generalize num % den = remainder at *
  simp only at half ⊢
  split at half
  · rw [Nat.mul_comm quotient den] at half; omega
  · split at half
    · rw [Nat.add_mul, Nat.mul_comm quotient den] at half; omega
    · rw [if_neg (by assumption), if_neg (by assumption)]; omega

end ComplexCalculator.Decimal
