import ComplexCalculator.Proofs.Decimal.Literal

/-!
Seventeen significant digits identify a double.

A number within half a unit of its seventeenth digit is nearer to the double than the midpoints
to its neighbours: the steps of doubles are finer than 53 binary digits, and `2 ^ 53` is less
than `10 ^ 16`.

The text with some significant digits rounds twice, first to choose the notation.
`significant_eq` says that it shows the number that was rounded first.
-/

namespace ComplexCalculator.Decimal

open Binary64
open Numeral (nearestToDecimal nearestToDecimal_eq pow_pos_ten lt_pow_length pow_length_le)

variable {word num den : Nat}

theorem roundDiv_eq_of_close {quotient : Nat} (above : 2 * (quotient * den) < 2 * num + den)
    (below : 2 * num < 2 * (quotient * den) + den) : roundDiv num den = quotient := by
  have positive : 0 < den := by
    by_contra zero
    obtain rfl : den = 0 := by omega
    omega
  have up := roundDiv_le num positive
  have down := le_roundDiv num positive
  rcases Nat.lt_trichotomy (roundDiv num den) quotient with less | same | greater
  · have next := Nat.mul_le_mul_right den (Nat.succ_le_of_lt less)
    rw [Nat.succ_mul] at next
    omega
  · exact same
  · have next := Nat.mul_le_mul_right den (Nat.succ_le_of_lt greater)
    rw [Nat.succ_mul] at next
    omega

/-- A quotient is nearest to a number when twice their distance is at most `10 ^ -16` times the
number. -/
theorem nearestWord_of_close {distance : Nat} (positive : 0 < den) (finite : word < infinityWord)
    (nonzero : word ≠ 0)
    (above : 2 * (num * unitsPerOne) ≤ 2 * (den * units word) + distance)
    (below : 2 * (den * units word) ≤ 2 * (num * unitsPerOne) + distance)
    (close : 10 ^ 16 * distance ≤ den * units word) :
    nearestWord num den = word := by
  obtain ⟨previous, rfl⟩ : ∃ previous, word = previous + 1 := ⟨word - 1, by omega⟩
  apply Nat.le_antisymm
  · apply nearestWord_le positive
    have next : 0 < den * step (previous + 1) := Nat.mul_pos positive (step_pos _)
    have less : den * units (previous + 1) ≤ den * (2 ^ 53 * step (previous + 1)) :=
      Nat.mul_le_mul_left den (Nat.le_trans (units_le_units (Nat.le_add_right _ 1))
        (units_succ_le _))
    rw [Nat.mul_left_comm] at less
    rw [units_succ (previous + 1), ← Nat.add_assoc, Nat.mul_add, Nat.mul_add]
    generalize num * unitsPerOne = exact at *
    omega
  · apply lt_nearestWord positive (by omega)
    have gap : 0 < den * step previous := Nat.mul_pos positive (step_pos _)
    have less : den * units (previous + 1) ≤ den * (2 ^ 53 * step previous) :=
      Nat.mul_le_mul_left den (units_succ_le previous)
    rw [Nat.mul_left_comm] at less
    have split : den * units (previous + 1) = den * units previous + den * step previous := by
      rw [units_succ, Nat.mul_add]
    rw [Nat.mul_add]
    generalize num * unitsPerOne = exact at *
    omega

theorem roundedTo_eq (word : Nat) (place : Int) :
    roundedTo word place =
      roundDiv (units word * 10 ^ (-place).toNat) (unitsPerOne * 10 ^ place.toNat) := by
  cases place with
  | ofNat place => simp [roundedTo]
  | negSucc place => simp [roundedTo]

theorem roundedTo_neg (word places : Nat) :
    roundedTo word (-(places : Int)) = fixedDigits word places := by
  rw [roundedTo_eq, fixedDigits]
  simp

/-- A number rounded to its seventeenth digit or beyond reads back as the number. -/
theorem nearestToDecimal_roundedTo {place : Int} (finite : word < infinityWord)
    (nonzero : word ≠ 0)
    (precise : 10 ^ 16 * (unitsPerOne * 10 ^ place.toNat) ≤ units word * 10 ^ (-place).toNat) :
    nearestToDecimal (roundedTo word place) place = word := by
  have scale : 0 < unitsPerOne * 10 ^ place.toNat := Nat.mul_pos unitsPerOne_pos (pow_pos_ten _)
  have up := roundDiv_le (units word * 10 ^ (-place).toNat) scale
  have down := le_roundDiv (units word * 10 ^ (-place).toNat) scale
  rw [nearestToDecimal_eq]
  rw [← roundedTo_eq] at up down
  generalize roundedTo word place = rounded at *
  have swap : rounded * (unitsPerOne * 10 ^ place.toNat) =
      rounded * 10 ^ place.toNat * unitsPerOne := by ring
  rw [swap] at up down
  rw [Nat.mul_comm (units word)] at up down precise
  exact nearestWord_of_close (pow_pos_ten _) finite nonzero up down precise

theorem leadingExponent_le (nonzero : word ≠ 0) :
    unitsPerOne * 10 ^ (leadingExponent word).toNat ≤
      units word * 10 ^ (-leadingExponent word).toNat := by
  have positive := units_pos nonzero
  unfold leadingExponent
  by_cases large : unitsPerOne ≤ units word
  · have quotient : units word / unitsPerOne ≠ 0 :=
      Nat.ne_of_gt (Nat.div_pos large unitsPerOne_pos)
    have digits := pow_length_le quotient
    have written : 0 < (Nat.toDigits 10 (units word / unitsPerOne)).length := Nat.length_toDigits_pos
    rw [if_pos large]
    generalize (Nat.toDigits 10 (units word / unitsPerOne)).length = length at *
    have up : ((length : Int) - 1).toNat = length - 1 := by omega
    have down : (-((length : Int) - 1)).toNat = 0 := by omega
    rw [up, down, Nat.pow_zero, Nat.mul_one]
    exact Nat.le_trans (Nat.mul_le_mul_left _ digits) (Nat.mul_div_le _ _)
  · have digits := lt_pow_length ((unitsPerOne - 1) / units word)
    rw [if_neg large]
    generalize (Nat.toDigits 10 ((unitsPerOne - 1) / units word)).length = length at *
    have up : (-(length : Int)).toNat = 0 := by omega
    have down : (- -(length : Int)).toNat = length := by omega
    rw [up, down, Nat.pow_zero, Nat.mul_one]
    have less := (Nat.div_lt_iff_lt_mul positive).mp digits
    rw [Nat.mul_comm] at less
    omega

theorem lt_leadingExponent (nonzero : word ≠ 0) :
    units word * 10 ^ (-(leadingExponent word + 1)).toNat <
      unitsPerOne * 10 ^ (leadingExponent word + 1).toNat := by
  have positive := units_pos nonzero
  unfold leadingExponent
  by_cases large : unitsPerOne ≤ units word
  · have digits := lt_pow_length (units word / unitsPerOne)
    rw [if_pos large]
    generalize (Nat.toDigits 10 (units word / unitsPerOne)).length = length at *
    have up : ((length : Int) - 1 + 1).toNat = length := by omega
    have down : (-((length : Int) - 1 + 1)).toNat = 0 := by omega
    rw [up, down, Nat.pow_zero, Nat.mul_one, Nat.mul_comm]
    exact (Nat.div_lt_iff_lt_mul unitsPerOne_pos).mp digits
  · have quotient : (unitsPerOne - 1) / units word ≠ 0 :=
      Nat.ne_of_gt (Nat.div_pos (by omega) positive)
    have digits := pow_length_le quotient
    have written : 0 < (Nat.toDigits 10 ((unitsPerOne - 1) / units word)).length :=
      Nat.length_toDigits_pos
    rw [if_neg large]
    generalize (Nat.toDigits 10 ((unitsPerOne - 1) / units word)).length = length at *
    have up : (-(length : Int) + 1).toNat = 0 := by omega
    have down : (-(-(length : Int) + 1)).toNat = length - 1 := by omega
    rw [up, down, Nat.pow_zero, Nat.mul_one]
    have product := Nat.le_trans (Nat.mul_le_mul_left (units word) digits) (Nat.mul_div_le _ _)
    have one := unitsPerOne_pos
    omega

theorem precise_seventeen (nonzero : word ≠ 0) {place : Int}
    (seventeenth : place = leadingExponent word - (16 : Nat)) :
    10 ^ 16 * (unitsPerOne * 10 ^ place.toNat) ≤ units word * 10 ^ (-place).toNat := by
  have leading := leadingExponent_le nonzero
  generalize leadingExponent word = exponent at *
  have balance : 16 + place.toNat + (-exponent).toNat = exponent.toNat + (-place).toNat := by omega
  have cancel : 0 < 10 ^ (-exponent).toNat := pow_pos_ten _
  apply Nat.le_of_mul_le_mul_right _ cancel
  calc 10 ^ 16 * (unitsPerOne * 10 ^ place.toNat) * 10 ^ (-exponent).toNat
      = unitsPerOne * 10 ^ (16 + place.toNat + (-exponent).toNat) := by
        rw [Nat.pow_add, Nat.pow_add]
        ring
    _ = unitsPerOne * 10 ^ exponent.toNat * 10 ^ (-place).toNat := by
        rw [balance, Nat.pow_add]
        ring
    _ ≤ units word * 10 ^ (-exponent).toNat * 10 ^ (-place).toNat := Nat.mul_le_mul_right _ leading
    _ = units word * 10 ^ (-place).toNat * 10 ^ (-exponent).toNat := by ring

section Carry

variable {place : Int} {number : Nat}

theorem roundDiv_ten_mul_den (positive : 0 < den) (rounded : roundDiv num den = 10 * number) :
    roundDiv num (10 * den) = number := by
  have up := roundDiv_le num positive
  have down := le_roundDiv num positive
  rw [rounded, Nat.mul_assoc] at up down
  have product : number * (10 * den) = 10 * (number * den) := Nat.mul_left_comm _ _ _
  apply roundDiv_eq_of_close
  · omega
  · omega

theorem roundDiv_of_ten_mul_num (positive : 0 < den)
    (rounded : roundDiv (10 * num) den = 10 * number) : roundDiv num den = number := by
  have up := roundDiv_le (10 * num) positive
  have down := le_roundDiv (10 * num) positive
  rw [rounded, Nat.mul_assoc] at up down
  apply roundDiv_eq_of_close
  · omega
  · omega

/-- Rounding to a power of ten also rounds to the next one, when a zero is dropped. -/
theorem roundedTo_carry (rounded : roundedTo word place = 10 * number) :
    roundedTo word (place + 1) = number := by
  rw [roundedTo_eq] at rounded ⊢
  have scale : 0 < unitsPerOne * 10 ^ place.toNat := Nat.mul_pos unitsPerOne_pos (pow_pos_ten _)
  by_cases whole : 0 ≤ place
  · have coarser : (place + 1).toNat = place.toNat + 1 := by omega
    have same : (-(place + 1)).toNat = (-place).toNat := by omega
    rw [coarser, same, Nat.pow_succ', Nat.mul_left_comm]
    exact roundDiv_ten_mul_den scale rounded
  · have same : (place + 1).toNat = place.toNat := by omega
    have finer : (-place).toNat = (-(place + 1)).toNat + 1 := by omega
    rw [finer, Nat.pow_succ', Nat.mul_left_comm] at rounded
    rw [same]
    exact roundDiv_of_ten_mul_num scale rounded

theorem nearestToDecimal_carry (number : Nat) (place : Int) :
    nearestToDecimal (10 * number) place = nearestToDecimal number (place + 1) := by
  rw [nearestToDecimal_eq, nearestToDecimal_eq]
  by_cases whole : 0 ≤ place
  · have coarser : (place + 1).toNat = place.toNat + 1 := by omega
    have same : (-(place + 1)).toNat = (-place).toNat := by omega
    have product : 10 * number * 10 ^ place.toNat = number * 10 ^ (place.toNat + 1) := by ring
    rw [coarser, same, product]
  · have same : (place + 1).toNat = place.toNat := by omega
    have finer : (-place).toNat = (-(place + 1)).toNat + 1 := by omega
    have product : 10 * number * 10 ^ place.toNat = number * 10 ^ place.toNat * 10 := by ring
    rw [same, finer, product, Nat.pow_succ, nearestWord_mul_right _ _ (by decide)]

end Carry

section Seventeen

variable {decimals : Nat}

theorem ofWord_cases (word decimals : Nat) :
    (roundedTo word (leadingExponent word - decimals) ≠ 10 * 10 ^ decimals ∧
        Scientific.ofWord word decimals =
          ⟨roundedTo word (leadingExponent word - decimals), decimals, leadingExponent word⟩) ∨
      (roundedTo word (leadingExponent word - decimals) = 10 * 10 ^ decimals ∧
        Scientific.ofWord word decimals = ⟨10 ^ decimals, decimals, leadingExponent word + 1⟩) := by
  have next : Nat.pow 10 (decimals + 1) = 10 * 10 ^ decimals := Nat.pow_succ' ..
  unfold Scientific.ofWord
  dsimp only
  rw [next]
  split
  · rename_i carried
    exact .inr ⟨carried, rfl⟩
  · rename_i kept
    exact .inl ⟨kept, rfl⟩

theorem decimals_ofWord (word decimals : Nat) :
    (Scientific.ofWord word decimals).decimals = decimals := by
  rcases ofWord_cases word decimals with ⟨_, same⟩ | ⟨_, same⟩ <;> rw [same]

theorem digits_ofWord (word decimals : Nat) :
    (Scientific.ofWord word decimals).digits =
      roundedTo word ((Scientific.ofWord word decimals).exponent - decimals) := by
  rcases ofWord_cases word decimals with ⟨-, same⟩ | ⟨carried, same⟩
  · rw [same]
  · have place : leadingExponent word + 1 - (decimals : Int) =
        leadingExponent word - decimals + 1 := by omega
    rw [same, place, roundedTo_carry carried]

/-- The word of the double nearest to the number rounded to `count` significant digits. -/
def significantWord (word count : Nat) : Nat :=
  let number := Scientific.ofWord word (count - 1)
  nearestToDecimal number.digits (number.exponent - number.decimals)

theorem significantWord_zero (count : Nat) : significantWord 0 count = 0 := by
  have digits : (Scientific.ofWord 0 (count - 1)).digits = 0 := by
    rw [digits_ofWord, roundedTo_eq, units_zero, Nat.zero_mul]
    simp only [roundDiv, Nat.zero_div, Nat.zero_mod, Nat.mul_zero, Nat.not_lt_zero, if_false]
    split <;> rfl
  unfold significantWord
  dsimp only
  rw [digits, nearestToDecimal_eq, Nat.zero_mul, nearestWord_zero (pow_pos_ten _)]

/-- Seventeen digits lose nothing. -/
theorem significantWord_seventeen (finite : word < infinityWord) :
    significantWord word 17 = word := by
  by_cases zero : word = 0
  · rw [zero, significantWord_zero]
  have rereads := nearestToDecimal_roundedTo finite zero (precise_seventeen zero rfl)
  rcases ofWord_cases word 16 with ⟨-, same⟩ | ⟨carried, same⟩
  · simp only [significantWord, same, rereads]
  · have place : leadingExponent word + 1 - ((16 : Nat) : Int) =
        leadingExponent word - (16 : Nat) + 1 := by omega
    simp only [significantWord, same]
    rw [place, ← nearestToDecimal_carry, ← carried, rereads]

end Seventeen

section Shown

/-- The literal that shows a number with `count` significant digits. -/
def Scientific.literal (number : Scientific) (count : Nat) : Literal :=
  if number.exponent < -6 ∨ (count : Int) ≤ number.exponent then scientificLiteral number
  else placedLiteral number.digits ((count : Int) - 1 - number.exponent).toNat

namespace Scientific

variable {number : Scientific} {count : Nat}

theorem digits_literal (number : Scientific) (count : Nat) :
    (number.literal count).digits = number.digits := by
  unfold literal
  split
  · exact digits_scientificLiteral number
  · exact digits_placedLiteral _ _

theorem exponent_literal (counted : number.decimals + 1 = count) :
    (number.literal count).exponent = number.exponent - number.decimals := by
  unfold literal
  split
  · exact exponent_scientificLiteral number
  · rw [exponent_placedLiteral]
    omega

end Scientific

variable {count : Nat} (positive : 0 < count)

include positive

/-- Positional notation rounds again, to its own decimals, and finds the same digits. -/
theorem significant_eq (finite : word < infinityWord) :
    significant word count =
      String.ofList ((Scientific.ofWord word (count - 1)).literal count).text := by
  have digits := digits_ofWord word (count - 1)
  unfold significant Scientific.literal
  generalize Scientific.ofWord word (count - 1) = number at *
  dsimp only
  split
  · exact (text_scientificLiteral number).symm
  · have place : number.exponent - (count - 1 : Nat) =
        -(((count : Int) - 1 - number.exponent).toNat : Int) := by omega
    rw [place, roundedTo_neg] at digits
    rw [fixedMagnitude, if_pos finite, text_placedLiteral, digits]

theorem word_literal_ofWord :
    ((Scientific.ofWord word (count - 1)).literal count).word = significantWord word count := by
  have counted : (Scientific.ofWord word (count - 1)).decimals + 1 = count := by
    rw [decimals_ofWord]
    omega
  rw [Literal.word, Scientific.digits_literal, Scientific.exponent_literal counted, significantWord]

end Shown

end ComplexCalculator.Decimal
