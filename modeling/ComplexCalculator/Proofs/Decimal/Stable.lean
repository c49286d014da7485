import ComplexCalculator.Proofs.Decimal.Significant

/-!
Decimals of the nearest double.

A number rounded to a number of decimals is nearest to a finite double. Twelve decimals are
stable: the nearest double to them rounds to the same decimals. Below 8192 the steps of doubles
are finer than `10 ^ -12`, and from there on they are so coarse that the double is the only one
near.
-/

namespace ComplexCalculator.Decimal

open Binary64
open Numeral (pow_pos_ten)

variable {word places : Nat}

theorem fixedDigits_def (word places : Nat) :
    fixedDigits word places = roundDiv (units word * 10 ^ places) unitsPerOne := rfl

theorem fixedDigits_le (word places : Nat) :
    2 * (fixedDigits word places * unitsPerOne) ≤ 2 * (10 ^ places * units word) + unitsPerOne := by
  rw [Nat.mul_comm (10 ^ places)]
  exact roundDiv_le _ unitsPerOne_pos

theorem le_fixedDigits (word places : Nat) :
    2 * (10 ^ places * units word) ≤ 2 * (fixedDigits word places * unitsPerOne) + unitsPerOne := by
  rw [Nat.mul_comm (10 ^ places)]
  exact le_roundDiv _ unitsPerOne_pos

theorem unitsPerOne_lt_step : unitsPerOne < step (infinityWord - 1) := by decide +kernel

theorem nearestWord_fixedDigits_finite (finite : word < infinityWord) :
    nearestWord (fixedDigits word places) (10 ^ places) < infinityWord := by
  have most : nearestWord (fixedDigits word places) (10 ^ places) ≤ infinityWord - 1 := by
    apply nearestWord_le (pow_pos_ten _)
    have up := fixedDigits_le word places
    have last : units word ≤ units (infinityWord - 1) := units_le_units (by omega)
    have size : 2 * (10 ^ places * units word) ≤ 2 * (10 ^ places * units (infinityWord - 1)) :=
      Nat.mul_le_mul_left 2 (Nat.mul_le_mul_left _ last)
    have gap : unitsPerOne < 10 ^ places * step (infinityWord - 1) :=
      Nat.lt_of_lt_of_le unitsPerOne_lt_step (Nat.le_mul_of_pos_left _ (pow_pos_ten places))
    rw [units_succ, ← Nat.add_assoc, Nat.mul_add, Nat.mul_add]
    generalize fixedDigits word places * unitsPerOne = rounded at *
    omega
  exact Nat.lt_of_le_of_lt most (by decide)

/-- The word of 8192. -/
def crossing : Nat := 1036 * 2 ^ 52

theorem units_crossing : units crossing = 8192 * unitsPerOne := by decide +kernel

theorem lt_step_of_crossing_le (large : crossing ≤ word) :
    unitsPerOne < 10 ^ 12 * step word := by
  have least : unitsPerOne < 10 ^ 12 * step crossing := by decide +kernel
  have coarser : step crossing ≤ step word := by
    apply Nat.pow_le_pow_right (by decide)
    exact Nat.sub_le_sub_right (Nat.div_le_div_right large) 1
  exact Nat.lt_of_lt_of_le least (Nat.mul_le_mul_left _ coarser)

theorem crossing_le (large : 8192 * 10 ^ 12 ≤ fixedDigits word 12) : crossing ≤ word := by
  by_contra smaller
  have up := fixedDigits_le word 12
  have most : units word ≤ units (crossing - 1) := units_le_units (by omega)
  have size : 10 ^ 12 * units word ≤ 10 ^ 12 * units (crossing - 1) := Nat.mul_le_mul_left _ most
  have bound := Nat.mul_le_mul_right unitsPerOne large
  have gap : 2 * (10 ^ 12 * units (crossing - 1)) + unitsPerOne <
      2 * (8192 * 10 ^ 12 * unitsPerOne) := by decide +kernel
  generalize fixedDigits word 12 * unitsPerOne = rounded at *
  generalize unitsPerOne = one at *
  omega

theorem nearestWord_of_crossing (finite : word < infinityWord)
    (large : 8192 * 10 ^ 12 ≤ fixedDigits word 12) :
    nearestWord (fixedDigits word 12) (10 ^ 12) = word := by
  have beyond := crossing_le large
  have up := fixedDigits_le word 12
  have down := le_fixedDigits word 12
  apply Nat.le_antisymm
  · apply nearestWord_le (by decide)
    have gap := lt_step_of_crossing_le beyond
    rw [units_succ, ← Nat.add_assoc, Nat.mul_add, Nat.mul_add]
    generalize fixedDigits word 12 * unitsPerOne = rounded at *
    generalize unitsPerOne = one at *
    omega
  · by_cases upwards : 10 ^ 12 * units word ≤ fixedDigits word 12 * unitsPerOne
    · exact le_nearestWord (by decide) (Nat.le_of_lt finite) upwards
    · -- the decimals lie below the number, so the number is not 8192 itself
      have bound := Nat.mul_le_mul_right unitsPerOne large
      have greater : units crossing < units word := by
        rw [units_crossing]
        omega
      have beyond := units_strictMono.lt_iff_lt.mp greater
      obtain ⟨previous, rfl⟩ : ∃ previous, word = previous + 1 := ⟨word - 1, by omega⟩
      apply lt_nearestWord (by decide) (by omega)
      have previousBeyond : crossing ≤ previous := by omega
      have gap := lt_step_of_crossing_le previousBeyond
      rw [units_succ] at down ⊢
      generalize fixedDigits (previous + 1) 12 * unitsPerOne = rounded at *
      generalize unitsPerOne = one at *
      omega

theorem step_below_crossing {digits shift : Nat} (small : digits < 8192 * 10 ^ 12)
    (normal : shift = 0 ∨ 2 ^ 52 * (10 ^ 12 * 2 ^ shift) ≤ digits * unitsPerOne) :
    10 ^ 12 * 2 ^ shift < unitsPerOne := by
  have most : 10 ^ 12 * 2 ^ 1034 < unitsPerOne := by decide +kernel
  have monotone {small large : Nat} (le : small ≤ large) : 2 ^ small ≤ 2 ^ large :=
    Nat.pow_le_pow_right (by decide) le
  by_cases low : shift ≤ 1034
  · have power := monotone low
    generalize 2 ^ 1034 = greatest at *
    omega
  · have crossed : 8192 * 10 ^ 12 * unitsPerOne = 2 ^ 52 * (10 ^ 12 * 2 ^ 1035) := by decide +kernel
    have power := monotone (Nat.lt_of_not_le low)
    have inside := normal.resolve_left (by omega)
    have less : digits * unitsPerOne < 8192 * 10 ^ 12 * unitsPerOne :=
      Nat.mul_lt_mul_of_pos_right small unitsPerOne_pos
    rw [crossed] at less
    generalize 2 ^ 1035 = least at *
    omega

theorem fixedDigits_nearestWord_below {digits : Nat} (small : digits < 8192 * 10 ^ 12)
    (finite : nearestWord digits (10 ^ 12) < infinityWord) :
    fixedDigits (nearestWord digits (10 ^ 12)) 12 = digits := by
  obtain ⟨shift, mantissa, same, rounds⟩ := nearestWord_rounds digits (pow_pos_ten 12)
  have nearest : nearestWord digits (10 ^ 12) = shift * 2 ^ 52 + mantissa := by omega
  have narrow := step_below_crossing small rounds.normal
  have up := rounds.up
  have down := rounds.down
  rw [nearest, fixedDigits_def, rounds.units_eq]
  have product : mantissa * (10 ^ 12 * 2 ^ shift) = mantissa * 2 ^ shift * 10 ^ 12 := by ring
  rw [product] at up down
  apply roundDiv_eq_of_close
  · omega
  · omega

/-- Twelve decimals are stable. -/
theorem fixedDigits_stable (finite : word < infinityWord) :
    fixedDigits (nearestWord (fixedDigits word 12) (10 ^ 12)) 12 = fixedDigits word 12 := by
  by_cases small : fixedDigits word 12 < 8192 * 10 ^ 12
  · exact fixedDigits_nearestWord_below small (nearestWord_fixedDigits_finite finite)
  · rw [nearestWord_of_crossing finite (Nat.le_of_not_lt small)]

end ComplexCalculator.Decimal
