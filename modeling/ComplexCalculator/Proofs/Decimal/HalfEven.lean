import Mathlib
import ComplexCalculator.Proofs.Decimal.Significant

namespace ComplexCalculator

open Binary64 (word units unitsPerOne isNegative unitsPerOne_pos units_pos)

/-- The number of this magnitude under a sign; `true` is the minus sign. -/
def Decimal.applySign (negative : Bool) (q : ℚ) : ℚ := if negative then -q else q

namespace Binary64

/-- The magnitude with this word. -/
def magnitude (word : ℕ) : ℚ := units word / unitsPerOne

/-- The exact value of a finite double. -/
def value (x : Float) : ℚ := Decimal.applySign (isNegative x) (magnitude (word x))

theorem magnitude_pos {word : ℕ} (nonzero : word ≠ 0) : 0 < magnitude word :=
  div_pos (Nat.cast_pos.mpr (units_pos nonzero)) (Nat.cast_pos.mpr unitsPerOne_pos)

end Binary64

namespace Decimal

open Binary64 (magnitude magnitude_pos)
open Numeral (pow_pos_ten)

section Sign

variable {q : ℚ}

theorem abs_applySign (negative : Bool) (positive : 0 < q) : |applySign negative q| = q := by
  cases negative with
  | false => exact abs_of_pos positive
  | true => exact (abs_neg q).trans (abs_of_pos positive)

theorem applySign_lt_zero (negative : Bool) (positive : 0 < q) :
    decide (applySign negative q < 0) = negative := by
  cases negative with
  | false => exact decide_eq_false positive.le.not_gt
  | true => exact decide_eq_true (neg_lt_zero.mpr positive)

end Sign

section Rounding

/-- The nearest integer; a tie goes to the even one. -/
def roundEven (q : ℚ) : ℤ :=
  if Int.fract q < 1 / 2 then ⌊q⌋ else if 1 / 2 < Int.fract q then ⌊q⌋ + 1 else ⌊q⌋ + ⌊q⌋ % 2

variable {q : ℚ} {k : ℤ}

theorem roundEven_near (q : ℚ) : |q - roundEven q| ≤ 1 / 2 := by
  have split := Int.floor_add_fract q
  have low := Int.fract_nonneg q
  have high := Int.fract_lt_one q
  have parity : ⌊q⌋ % 2 = 0 ∨ ⌊q⌋ % 2 = 1 := Int.emod_two_eq_zero_or_one _
  unfold roundEven
  rw [abs_le]
  split
  · constructor <;> linarith
  · split
    · push_cast
      constructor <;> linarith
    · rcases parity with even | odd
      · rw [even, add_zero]
        constructor <;> linarith
      · rw [odd]
        push_cast
        constructor <;> linarith

theorem even_roundEven (half : |q - roundEven q| = 1 / 2) : Even (roundEven q) := by
  have split := Int.floor_add_fract q
  have low := Int.fract_nonneg q
  have high := Int.fract_lt_one q
  unfold roundEven at half ⊢
  split_ifs at half ⊢ with below above
  · rw [abs_of_nonneg (by linarith)] at half
    linarith
  · push_cast at half
    rw [abs_of_neg (by linarith)] at half
    linarith
  · rw [Int.even_iff]
    omega

/-- No other integer is as near, or even at the same distance. -/
theorem roundEven_eq (near : |q - k| ≤ 1 / 2) (even : |q - k| = 1 / 2 → Even k) :
    roundEven q = k := by
  have split := Int.floor_add_fract q
  have low := Int.fract_nonneg q
  have high := Int.fract_lt_one q
  obtain ⟨least, greatest⟩ := abs_le.mp near
  have atLeast : ⌊q⌋ ≤ k := by
    have less : (⌊q⌋ : ℚ) < k + 1 := by linarith
    exact_mod_cast Int.lt_add_one_iff.mp (by exact_mod_cast less)
  unfold roundEven
  split_ifs with below above
  · have less : (k : ℚ) < ⌊q⌋ + 1 := by linarith
    have atMost : k < ⌊q⌋ + 1 := by exact_mod_cast less
    omega
  · have more : (⌊q⌋ : ℚ) < k := by linarith
    have less : (k : ℚ) < ⌊q⌋ + 2 := by linarith
    have bounds : ⌊q⌋ < k ∧ k < ⌊q⌋ + 2 := by exact_mod_cast And.intro more less
    omega
  · have half : Int.fract q = 1 / 2 := le_antisymm (not_lt.mp above) (not_lt.mp below)
    have less : (k : ℚ) < ⌊q⌋ + 2 := by linarith
    have atMost : k < ⌊q⌋ + 2 := by exact_mod_cast less
    have next : k = ⌊q⌋ ∨ k = ⌊q⌋ + 1 := by omega
    have tie : |q - k| = 1 / 2 := by
      rcases next with rfl | rfl
      · rw [abs_of_nonneg (by linarith)]
        linarith
      · push_cast
        rw [abs_of_neg (by linarith)]
        linarith
    have parity := Int.even_iff.mp (even tie)
    omega

theorem roundEven_neg (q : ℚ) : roundEven (-q) = -roundEven q := by
  have same : |-q - (-roundEven q : ℤ)| = |q - roundEven q| := by
    rw [← abs_neg]
    push_cast
    ring_nf
  refine roundEven_eq ?_ fun half => ?_
  · rw [same]
    exact roundEven_near q
  · rw [same] at half
    exact (even_roundEven half).neg

/-- The quotient of naturals is rounded to the same integer. -/
theorem roundEven_div (num : ℕ) {den : ℕ} (positive : 0 < den) :
    roundEven ((num : ℚ) / den) = roundDiv num den := by
  have scale : (0 : ℚ) < den := Nat.cast_pos.mpr positive
  have whole : ⌊(num : ℚ) / den⌋ = (num / den : ℕ) := Rat.floor_natCast_div_natCast num den
  have rest : Int.fract ((num : ℚ) / den) = (num % den : ℕ) / den :=
    Int.fract_div_natCast_eq_div_natCast_mod
  have below : Int.fract ((num : ℚ) / den) < 1 / 2 ↔ 2 * (num % den) < den := by
    rw [rest, div_lt_div_iff₀ scale two_pos, mul_comm, one_mul]
    exact_mod_cast Iff.rfl
  have above : 1 / 2 < Int.fract ((num : ℚ) / den) ↔ den < 2 * (num % den) := by
    rw [rest, div_lt_div_iff₀ two_pos scale, mul_comm _ (2 : ℚ), one_mul]
    exact_mod_cast Iff.rfl
  simp only [roundEven, roundDiv, below, above, whole]
  split_ifs <;> rfl

/-- Rounding does not pass an integer. -/
theorem le_roundEven (le : (k : ℚ) ≤ q) : k ≤ roundEven q := by
  obtain ⟨-, most⟩ := abs_le.mp (roundEven_near q)
  have less : (k : ℚ) < roundEven q + 1 := by linarith
  exact Int.lt_add_one_iff.mp (by exact_mod_cast less)

theorem roundEven_le (le : q ≤ k) : roundEven q ≤ k := by
  obtain ⟨least, -⟩ := abs_le.mp (roundEven_near q)
  have less : (roundEven q : ℚ) < k + 1 := by linarith
  exact Int.lt_add_one_iff.mp (by exact_mod_cast less)

end Rounding

section Significant

/-- The power of ten of the last of `count` significant digits. -/
def lastPlace (count : ℕ) (q : ℚ) : ℤ := Int.log 10 |q| + 1 - count

/-- A number rounded to `count` significant digits. -/
def roundSignificant (count : ℕ) (q : ℚ) : ℚ :=
  roundEven (q / 10 ^ lastPlace count q) * 10 ^ lastPlace count q

variable {word decimals : ℕ} {place : ℤ}

theorem roundSignificant_neg (count : ℕ) (q : ℚ) :
    roundSignificant count (-q) = -roundSignificant count q := by
  have same : lastPlace count (-q) = lastPlace count q := by
    rw [lastPlace, abs_neg, lastPlace]
  rw [roundSignificant, same, neg_div, roundEven_neg, roundSignificant]
  push_cast
  ring

theorem roundSignificant_applySign (count : ℕ) (negative : Bool) (q : ℚ) :
    roundSignificant count (applySign negative q) =
      applySign negative (roundSignificant count q) := by
  cases negative with
  | false => rfl
  | true => exact roundSignificant_neg count q

theorem zpow_ten_mul (place : ℤ) :
    (10 : ℚ) ^ place * 10 ^ (-place).toNat = 10 ^ place.toNat := by
  rw [← zpow_natCast, ← zpow_natCast, ← zpow_add₀ (by norm_num)]
  congr 1
  omega

theorem pow_mul_zpow (places : ℕ) (place : ℤ) :
    (10 : ℚ) ^ places * 10 ^ place = 10 ^ (place + places) := by
  rw [← zpow_natCast, ← zpow_add₀ (by norm_num), add_comm]

theorem zpow_le_magnitude :
    (10 : ℚ) ^ place ≤ magnitude word ↔
      unitsPerOne * 10 ^ place.toNat ≤ units word * 10 ^ (-place).toNat := by
  have one : (0 : ℚ) < unitsPerOne := Nat.cast_pos.mpr unitsPerOne_pos
  have scale : (0 : ℚ) < 10 ^ (-place).toNat := by positivity
  have product : (10 : ℚ) ^ place * unitsPerOne * 10 ^ (-place).toNat =
      unitsPerOne * 10 ^ place.toNat := by
    rw [← zpow_ten_mul place]
    ring
  rw [magnitude, le_div_iff₀ one, ← mul_le_mul_iff_of_pos_right scale, product]
  exact_mod_cast Iff.rfl

theorem log_eq {q : ℚ} {exponent : ℤ} (least : 10 ^ exponent ≤ q) (most : q < 10 ^ (exponent + 1)) :
    Int.log 10 q = exponent := by
  have positive : 0 < q := lt_of_lt_of_le (by positivity) least
  apply le_antisymm
  · exact Int.lt_add_one_iff.mp ((Int.lt_zpow_iff_log_lt (by norm_num) positive).mp most)
  · exact (Int.zpow_le_iff_le_log (by norm_num) positive).mp least

theorem lt_zpow_magnitude (nonzero : word ≠ 0) :
    magnitude word < 10 ^ (leadingExponent word + 1) := by
  rw [← not_le, zpow_le_magnitude, not_le]
  exact lt_leadingExponent nonzero

theorem log_magnitude (nonzero : word ≠ 0) :
    Int.log 10 (magnitude word) = leadingExponent word :=
  log_eq (zpow_le_magnitude.mpr (leadingExponent_le nonzero)) (lt_zpow_magnitude nonzero)

theorem roundedTo_eq_roundEven (word : ℕ) (place : ℤ) :
    (roundedTo word place : ℤ) = roundEven (magnitude word / 10 ^ place) := by
  have scale : 0 < unitsPerOne * 10 ^ place.toNat := Nat.mul_pos unitsPerOne_pos (pow_pos_ten _)
  rw [roundedTo_eq, ← roundEven_div _ scale, magnitude]
  congr 1
  push_cast
  rw [← zpow_ten_mul place, div_div, ← mul_assoc]
  exact mul_div_mul_right _ _ (by positivity)

theorem lastPlace_magnitude (nonzero : word ≠ 0) (decimals : ℕ) :
    lastPlace (decimals + 1) (magnitude word) = leadingExponent word - decimals := by
  rw [lastPlace, abs_of_pos (magnitude_pos nonzero), log_magnitude nonzero]
  push_cast
  ring

theorem roundedTo_bounds (nonzero : word ≠ 0) (decimals : ℕ) :
    10 ^ decimals ≤ roundedTo word (leadingExponent word - decimals) ∧
      roundedTo word (leadingExponent word - decimals) ≤ 10 * 10 ^ decimals := by
  have rounded := roundedTo_eq_roundEven word (leadingExponent word - decimals)
  have scale : (0 : ℚ) < 10 ^ (leadingExponent word - decimals) := by positivity
  have product : (10 : ℚ) ^ decimals * 10 ^ (leadingExponent word - decimals) =
      10 ^ leadingExponent word := by
    rw [pow_mul_zpow, sub_add_cancel]
  have least : ((10 ^ decimals : ℤ) : ℚ) ≤
      magnitude word / 10 ^ (leadingExponent word - decimals) := by
    rw [le_div_iff₀ scale]
    push_cast
    rw [product]
    exact zpow_le_magnitude.mpr (leadingExponent_le nonzero)
  have most : magnitude word / 10 ^ (leadingExponent word - decimals) ≤
      ((10 * 10 ^ decimals : ℤ) : ℚ) := by
    rw [div_le_iff₀ scale]
    push_cast
    rw [mul_assoc, product, mul_comm, ← zpow_add_one₀ (by norm_num)]
    exact (lt_zpow_magnitude nonzero).le
  have above := le_roundEven least
  have below := roundEven_le most
  rw [← rounded] at above below
  clear rounded
  generalize roundedTo word (leadingExponent word - decimals) = number at *
  exact_mod_cast And.intro above below

namespace Scientific

variable {number : Scientific}

def value (number : Scientific) : ℚ := number.digits * 10 ^ (number.exponent - number.decimals)

/-- One digit stands before the point, and it is not zero. -/
structure Normal (number : Scientific) : Prop where
  least : 10 ^ number.decimals ≤ number.digits
  most : number.digits < 10 ^ (number.decimals + 1)

theorem Normal.value_pos (normal : number.Normal) : 0 < number.value := by
  have positive : (0 : ℚ) < number.digits :=
    Nat.cast_pos.mpr (Nat.lt_of_lt_of_le (pow_pos_ten _) normal.least)
  exact mul_pos positive (zpow_pos (by norm_num) _)

theorem Normal.log_value (normal : number.Normal) : Int.log 10 number.value = number.exponent := by
  obtain ⟨least, most⟩ := normal
  have scale : (0 : ℚ) < 10 ^ (number.exponent - number.decimals) := by positivity
  apply log_eq
  · have lower : (10 : ℚ) ^ number.decimals ≤ number.digits := by exact_mod_cast least
    calc (10 : ℚ) ^ number.exponent
        = 10 ^ number.decimals * 10 ^ (number.exponent - number.decimals) := by
          rw [pow_mul_zpow, sub_add_cancel]
      _ ≤ number.value := mul_le_mul_of_nonneg_right lower scale.le
  · have upper : (number.digits : ℚ) < 10 ^ (number.decimals + 1) := by exact_mod_cast most
    calc number.value
        < 10 ^ (number.decimals + 1) * 10 ^ (number.exponent - number.decimals) :=
          mul_lt_mul_of_pos_right upper scale
      _ = 10 ^ (number.exponent + 1) := by
          rw [pow_mul_zpow, Nat.cast_succ, ← add_assoc, sub_add_cancel]

end Scientific

/-- Also after a carry. -/
theorem normal_ofWord (nonzero : word ≠ 0) (decimals : ℕ) :
    (Scientific.ofWord word decimals).Normal := by
  obtain ⟨least, most⟩ := roundedTo_bounds nonzero decimals
  have next : 10 ^ (decimals + 1) = 10 * 10 ^ decimals := Nat.pow_succ'
  have positive : 0 < 10 ^ decimals := pow_pos_ten decimals
  have cases := ofWord_cases word decimals
  generalize roundedTo word (leadingExponent word - decimals) = rounded at *
  rcases cases with ⟨kept, same⟩ | ⟨-, same⟩
  · rw [same]
    exact ⟨least, by simp only [next]; omega⟩
  · rw [same]
    exact ⟨Nat.le_refl _, by simp only [next]; omega⟩

/-- The number that is computed is the magnitude rounded to its significant digits. -/
theorem roundSignificant_magnitude (nonzero : word ≠ 0) (decimals : ℕ) :
    roundSignificant (decimals + 1) (magnitude word) = (Scientific.ofWord word decimals).value := by
  rw [roundSignificant, lastPlace_magnitude nonzero, ← roundedTo_eq_roundEven, Scientific.value,
    Int.cast_natCast]
  rcases ofWord_cases word decimals with ⟨-, same⟩ | ⟨carried, same⟩
  · rw [same]
  · have next : leadingExponent word + 1 - (decimals : ℤ) =
        leadingExponent word - decimals + 1 := by ring
    rw [same, carried, next, zpow_add_one₀ (by norm_num)]
    push_cast
    ring

end Significant
end Decimal
end ComplexCalculator
