import ComplexCalculator.Proofs.Binary64.Rounding

namespace ComplexCalculator.Binary64

open Float.Model

variable {num den bound : Nat} {x y : Float}

theorem nearestWord_le_of_le (positive : 0 < den) (le : num * unitsPerOne ≤ den * units bound) :
    nearestWord num den ≤ bound := by
  have next : den * units bound < den * units (bound + 1) :=
    Nat.mul_lt_mul_of_pos_left (units_strictMono (Nat.lt_succ_self bound)) positive
  apply nearestWord_le positive
  rw [Nat.mul_add]
  omega

theorem units_word_one : units (word 1) = unitsPerOne := by decide +kernel

theorem word_one_finite : word 1 < infinityWord := by decide

theorem isFinite_iff : Binary64.isFinite x = true ↔ word x < infinityWord := decide_eq_true_iff

theorem mul_eq (xFinite : Binary64.isFinite x = true) (yFinite : Binary64.isFinite y = true) :
    x * y = ofWord (isNegative x != isNegative y)
      (nearestWord (units (word x) * units (word y)) (unitsPerOne * unitsPerOne)) := by
  conv_lhs => rw [← ofWord_word xFinite, ← ofWord_word yFinite]
  exact ofWord_mul_ofWord (isFinite_iff.mp xFinite) (isFinite_iff.mp yFinite)

theorem div_eq (xFinite : Binary64.isFinite x = true) (yFinite : Binary64.isFinite y = true)
    (nonzero : word y ≠ 0) :
    x / y = ofWord (isNegative x != isNegative y)
      (nearestWord (units (word x)) (units (word y))) := by
  conv_lhs => rw [← ofWord_word xFinite, ← ofWord_word yFinite]
  exact ofWord_div_ofWord (isFinite_iff.mp xFinite) (isFinite_iff.mp yFinite) nonzero

/-- A factor of at most one does not enlarge a magnitude. -/
theorem nearestWord_mul_le {left right : Nat} (small : right ≤ word 1) :
    nearestWord (units left * units right) (unitsPerOne * unitsPerOne) ≤ left := by
  have factor := units_le_units small
  rw [units_word_one] at factor
  apply nearestWord_le_of_le (Nat.mul_pos unitsPerOne_pos unitsPerOne_pos)
  calc units left * units right * unitsPerOne
      ≤ units left * unitsPerOne * unitsPerOne :=
        Nat.mul_le_mul_right _ (Nat.mul_le_mul_left _ factor)
    _ = unitsPerOne * unitsPerOne * units left := by ring

theorem word_mul_le_left (finite : Binary64.isFinite x = true) (small : word y ≤ word 1) :
    word (x * y) ≤ word x := by
  have yFinite : Binary64.isFinite y = true :=
    isFinite_iff.mpr (Nat.lt_of_le_of_lt small word_one_finite)
  have nearest : nearestWord (units (word x) * units (word y)) (unitsPerOne * unitsPerOne) ≤
      word x := nearestWord_mul_le small
  rw [mul_eq finite yFinite,
    word_ofWord (Nat.lt_of_le_of_lt nearest (isFinite_iff.mp finite))]
  exact nearest

theorem word_mul_le_right (finite : Binary64.isFinite y = true) (small : word x ≤ word 1) :
    word (x * y) ≤ word y := by
  have xFinite : Binary64.isFinite x = true :=
    isFinite_iff.mpr (Nat.lt_of_le_of_lt small word_one_finite)
  have commuted : x * y = y * x := by
    rw [mul_eq xFinite finite, mul_eq finite xFinite, Nat.mul_comm, bne_comm]
  rw [commuted]
  exact word_mul_le_left finite small

theorem isFinite_of_le (finite : Binary64.isFinite y = true) (le : word x ≤ word y) :
    Binary64.isFinite x = true :=
  isFinite_iff.mpr (Nat.lt_of_le_of_lt le (isFinite_iff.mp finite))

theorem word_div_le (finite : Binary64.isFinite y = true) (nonzero : word y ≠ 0)
    (small : word x ≤ word y) : word (x / y) ≤ word 1 := by
  have xFinite : Binary64.isFinite x = true :=
    isFinite_iff.mpr (Nat.lt_of_le_of_lt small (isFinite_iff.mp finite))
  have positive : 0 < units (word y) := by
    have less := units_strictMono (Nat.pos_of_ne_zero nonzero)
    rwa [units_zero] at less
  have nearest : nearestWord (units (word x)) (units (word y)) ≤ word 1 := by
    apply nearestWord_le_of_le positive
    rw [units_word_one]
    exact Nat.mul_le_mul_right _ (units_le_units small)
  rw [div_eq xFinite finite nonzero,
    word_ofWord (Nat.lt_of_le_of_lt nearest word_one_finite)]
  exact nearest

theorem word_infinity (negative : Bool) : word (ofWord negative infinityWord) = infinityWord := by
  cases negative <;> decide

/-- A quotient of numbers is a number or infinite. -/
theorem word_div_le_infinityWord (xFinite : Binary64.isFinite x = true)
    (yFinite : Binary64.isFinite y = true) (nonzero : word y ≠ 0) :
    word (x / y) ≤ infinityWord := by
  rw [div_eq xFinite yFinite nonzero]
  rcases Nat.lt_or_eq_of_le (nearestWord_le_infinityWord (units (word x)) (units (word y))) with
    finite | infinite
  · rw [word_ofWord finite]
    exact Nat.le_of_lt finite
  · rw [infinite, word_infinity]

section Zero

variable {negative other : Bool} {number : Nat}

theorem word_add_zero (finite : number < infinityWord) :
    word (ofWord negative number + ofWord other 0) = number := by
  by_cases zero : number = 0
  · subst zero
    cases negative <;> cases other <;> decide
  · rw [ofWord_add_zero finite zero, word_ofWord finite]

theorem word_sub_zero (finite : number < infinityWord) :
    word (ofWord negative number - ofWord other 0) = number := by
  by_cases zero : number = 0
  · subst zero
    cases negative <;> cases other <;> decide
  · rw [ofWord_sub_zero finite zero, word_ofWord finite]

theorem isFinite_of_zero (zero : word y = 0) : Binary64.isFinite y = true := by
  rw [isFinite_iff, zero]
  exact zero_finite

theorem isFinite_add_zero (finite : Binary64.isFinite x = true) (zero : word y = 0) :
    Binary64.isFinite (x + y) = true := by
  have bound := isFinite_iff.mp finite
  rw [isFinite_iff, ← ofWord_word finite, ← ofWord_word (isFinite_of_zero zero), zero,
    word_add_zero bound]
  exact bound

theorem isFinite_sub_zero (finite : Binary64.isFinite x = true) (zero : word y = 0) :
    Binary64.isFinite (x - y) = true := by
  have bound := isFinite_iff.mp finite
  rw [isFinite_iff, ← ofWord_word finite, ← ofWord_word (isFinite_of_zero zero), zero,
    word_sub_zero bound]
  exact bound

theorem beq_zero (zero : word x = 0) : (x == 0) = true := by
  rw [← ofWord_word (isFinite_of_zero zero), zero]
  cases isNegative x <;> decide

end Zero

end ComplexCalculator.Binary64
