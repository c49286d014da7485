import Mathlib.Data.Nat.Log
import ComplexCalculator.Proofs.Binary64.Arithmetic
import ComplexCalculator.Proofs.Binary64.Nearest

/-!
Products and quotients are rounded correctly.

The arithmetic computes a mantissa with two residual bits and rounds it twice, the second time
only to make room for a carry. `Represents` says which exact quotient the bits stand for, and
`ofModel_round` that the rounded number is the double nearest to it.
-/

namespace ComplexCalculator.Binary64

open Float.Model Float.Model.UnpackedFloat
open Decimal (roundDiv roundDiv_le le_roundDiv roundDiv_even)

section Residues

variable {num den : Nat} {extended : ExtendedMantissa}

/-- The mantissa is the whole part of the quotient. The round bit says that the rest is at least a
half, the sticky bit that it is neither nothing nor a half. -/
structure Represents (extended : ExtendedMantissa) (num den : Nat) : Prop where
  mantissa : extended.mantissa = num / den
  roundBit : extended.roundBit = true ↔ den ≤ 2 * (num % den)
  stickyBit : extended.stickyBit = true ↔ 2 * (num % den) ≠ 0 ∧ 2 * (num % den) ≠ den

theorem represents_exact (mantissa : Nat) :
    Represents (.ofMantissaAndAccuracy mantissa .exact) mantissa 1 := by
  constructor <;> simp [ExtendedMantissa.ofMantissaAndAccuracy, Nat.mod_one]

theorem represents_fraction (num : Nat) (positive : 0 < den) :
    Represents (.ofMantissaAndAccuracy (num / den) (accuracyOfFraction (num % den) den)) num den := by
  unfold accuracyOfFraction
  by_cases whole : num % den = 0
  · rw [if_pos whole]
    constructor <;> simp [ExtendedMantissa.ofMantissaAndAccuracy, whole]; omega
  · rw [if_neg whole]
    cases order : compare (2 * (num % den)) den with
    | lt =>
        have less := Nat.compare_eq_lt.mp order
        constructor <;> simp [ExtendedMantissa.ofMantissaAndAccuracy] <;> omega
    | eq =>
        have same := Nat.compare_eq_eq.mp order
        constructor <;> simp [ExtendedMantissa.ofMantissaAndAccuracy] <;> omega
    | gt =>
        have greater := Nat.compare_eq_gt.mp order
        constructor <;> simp [ExtendedMantissa.ofMantissaAndAccuracy] <;> omega

namespace Represents

theorem shiftRightOne (represents : Represents extended num den) (positive : 0 < den) :
    Represents extended.shiftRightOne num (den * 2) := by
  obtain ⟨mantissa, roundBit, stickyBit⟩ := represents
  have small := Nat.mod_lt num positive
  have rest : num % (den * 2) = num % den + den * (num / den % 2) := Nat.mod_mul
  have half : num / den % 2 = 0 ∨ num / den % 2 = 1 := by omega
  have sticky : (extended.roundBit || extended.stickyBit) = true ↔ num % den ≠ 0 := by
    rw [Bool.or_eq_true, roundBit, stickyBit]
    omega
  refine ⟨?_, ?_, ?_⟩
  · rw [ExtendedMantissa.shiftRightOne, mantissa, Nat.div_div_eq_div_mul]
  · simp only [ExtendedMantissa.shiftRightOne, bne_iff_ne, mantissa, rest]
    rcases half with even | odd
    · rw [even]
      omega
    · rw [odd]
      omega
  · simp only [ExtendedMantissa.shiftRightOne, sticky, rest]
    rcases half with even | odd
    · rw [even]
      omega
    · rw [odd]
      omega

theorem shiftRight (represents : Represents extended num den) (positive : 0 < den) (shift : Nat) :
    Represents (extended >>> shift) num (den * 2 ^ shift) := by
  induction shift with
  | zero => simpa [HShiftRight.hShiftRight, Nat.repeat] using represents
  | succ shift ih =>
      have next := ih.shiftRightOne (Nat.mul_pos positive (Nat.two_pow_pos shift))
      rw [Nat.mul_assoc, ← Nat.pow_succ] at next
      exact next

theorem roundedMantissa (represents : Represents extended num den) :
    extended.roundedMantissa = roundDiv num den := by
  obtain ⟨mantissa, roundBit, stickyBit⟩ := represents
  obtain ⟨whole, round, sticky⟩ := extended
  simp only at mantissa roundBit stickyBit
  subst mantissa
  unfold ExtendedMantissa.roundedMantissa roundDiv
  cases round <;> cases sticky <;>
    simp only [ExtendedMantissa.accuracy, Accuracy.roundToNearestEven, Bool.false_eq_true,
      false_iff, true_iff] at roundBit stickyBit ⊢
  all_goals split
  all_goals first | omega | (split <;> omega)

end Represents

end Residues

section Packing

variable {negative : Bool} {shift mantissa : Nat}

theorem ofModel_pack_infinity (negative : Bool) :
    Float.ofModel (Float.Model.pack (.infinity (sign negative))) = ofWord negative infinityWord := by
  cases negative <;> decide

theorem pack_overflow {exponent : Int} (positive : 0 < mantissa) (large : 972 ≤ exponent) :
    Float.Model.pack (.finite (sign negative) mantissa exponent positive) =
      Float.Model.pack (.infinity (sign negative)) := by
  have overflow : 2 ^ 11 ≤ (exponent + Format.binary64.exponentBias +
      Format.binary64.mantissaBitsWithoutImplicit).toNat + 1 := by
    change 2048 ≤ (exponent + 1023 + 52).toNat + 1
    omega
  have packed : UnpackedFloat.pack Format.binary64
      (.finite (sign negative) mantissa exponent positive) =
        packedInfinity Format.binary64 (sign negative) := if_pos overflow
  unfold Float.Model.pack
  simp only [packed]
  rfl

/-- A mantissa that fits its binade is packed as the word that counts binades and mantissa. -/
theorem ofModel_pack_finite (positive : 0 < mantissa) (bound : mantissa < 2 ^ 53)
    (normal : shift = 0 ∨ 2 ^ 52 ≤ mantissa) :
    Float.ofModel (Float.Model.pack (.finite (sign negative) mantissa (shift - 1074) positive)) =
      ofWord negative (min (shift * 2 ^ 52 + mantissa) infinityWord) := by
  by_cases finite : shift * 2 ^ 52 + mantissa < infinityWord
  · rw [Nat.min_eq_left (Nat.le_of_lt finite), ← ofModel_pack finite]
    by_cases subnormal : mantissa < 2 ^ 52
    · obtain rfl : shift = 0 := by omega
      have word : 0 * 2 ^ 52 + mantissa = mantissa := by omega
      rw [word, unpacked_subnormal negative positive subnormal]
      rfl
    · have field : (shift * 2 ^ 52 + mantissa) % 2 ^ 52 + 2 ^ 52 = mantissa := by omega
      have binade : (((shift * 2 ^ 52 + mantissa) / 2 ^ 52 : Nat) : Int) - 1075 = shift - 1074 := by
        omega
      rw [unpacked_normal negative (by omega)]
      simp only [field, binade]
  · have infinite := Nat.le_of_not_lt finite
    have large : 972 ≤ (shift : Int) - 1074 := by
      rw [infinityWord_def] at infinite
      omega
    rw [Nat.min_eq_right infinite, pack_overflow positive large, ofModel_pack_infinity]

end Packing

section Carry

variable {shift mantissa : Nat}

theorem shiftToTargetExponent_fits (bound : mantissa < 2 ^ 53)
    (normal : shift = 0 ∨ 2 ^ 52 ≤ mantissa) :
    shiftToTargetExponent Format.binary64 mantissa (shift - 1074) .exact =
      (⟨mantissa, false, false⟩, (shift : Int) - 1074) := by
  have canonical : Format.binary64.targetExponent (totalExponent mantissa (shift - 1074)) =
      (shift : Int) - 1074 := by
    rw [targetExponent_eq, totalExponent]
    rcases normal with rfl | normal
    · have log : mantissa.log2 ≤ 52 := by
        by_cases zero : mantissa = 0
        · subst zero
          decide
        · exact Nat.le_of_lt_succ ((Nat.log2_lt zero).mpr bound)
      omega
    · have log : mantissa.log2 = 52 := (Nat.log2_eq_iff (by omega)).mpr ⟨normal, bound⟩
      omega
  simp only [shiftToTargetExponent, shiftToExponent, canonical, Int.sub_self]
  exact Prod.ext rfl (by simp)

theorem shiftToTargetExponent_carry (shift : Nat) :
    shiftToTargetExponent Format.binary64 (2 ^ 53) (shift - 1074) .exact =
      (⟨2 ^ 52, false, false⟩, ((shift + 1 : Nat) : Int) - 1074) := by
  have target : Format.binary64.targetExponent (totalExponent (2 ^ 53) (shift - 1074)) =
      (shift : Int) - 1074 + 1 := by
    rw [targetExponent_eq, totalExponent, Nat.log2_two_pow]
    omega
  have one : ((shift : Int) - 1074 + 1 - (shift - 1074)).toNat = 1 := by omega
  simp only [shiftToTargetExponent, shiftToExponent, target, one]
  exact Prod.ext rfl (by push_cast; omega)

end Carry

section Round

variable {negative : Bool} {mantissa num den : Nat} {exponent : Int} {accuracy : Accuracy}

/-- The binade that a mantissa and its exponent are rounded in, counted from the lowest one. -/
def binade (mantissa : Nat) (exponent : Int) : Nat :=
  (mantissa.log2 + 1 + exponent + 1021).toNat

theorem targetExponent_binade (mantissa : Nat) (exponent : Int) :
    Format.binary64.targetExponent (totalExponent mantissa exponent) =
      (binade mantissa exponent : Int) - 1074 := by
  rw [targetExponent_eq, totalExponent, binade]
  omega

/-- By how many places the mantissa is shifted into its binade. -/
def excess (mantissa : Nat) (exponent : Int) : Nat :=
  ((binade mantissa exponent : Int) - 1074 - exponent).toNat

theorem rounds_binade (positive : 0 < den) (whole : mantissa = num / den)
    (fits : exponent ≤ (binade mantissa exponent : Int) - 1074) :
    Rounds num (den * 2 ^ excess mantissa exponent) (binade mantissa exponent)
      (roundDiv num (den * 2 ^ excess mantissa exponent)) := by
  have scale : 0 < den * 2 ^ excess mantissa exponent := Nat.mul_pos positive (Nat.two_pow_pos _)
  refine ⟨?_, ?_, roundDiv_le num scale, le_roundDiv num scale, roundDiv_even scale⟩
  · by_cases lowest : binade mantissa exponent = 0
    · exact .inl lowest
    · right
      have places : mantissa.log2 = 52 + excess mantissa exponent := by
        unfold excess binade at *
        omega
      have nonzero : mantissa ≠ 0 := by
        intro zero
        rw [zero, Nat.log2_zero] at places
        omega
      have large := Nat.log2_self_le nonzero
      rw [places, Nat.pow_add] at large
      calc 2 ^ 52 * (den * 2 ^ excess mantissa exponent)
          = den * (2 ^ 52 * 2 ^ excess mantissa exponent) := by ring
        _ ≤ den * mantissa := Nat.mul_le_mul_left den large
        _ = den * (num / den) := by rw [whole]
        _ ≤ num := Nat.mul_div_le num den
  · have places : mantissa.log2 + 1 ≤ 53 + excess mantissa exponent := by
      unfold excess binade at *
      omega
    have small : num / den + 1 ≤ 2 ^ 53 * 2 ^ excess mantissa exponent := by
      rw [← Nat.pow_add, ← whole]
      exact Nat.le_trans Nat.lt_log2_self (Nat.pow_le_pow_right (by decide) places)
    calc num < den * (num / den + 1) := Nat.lt_mul_div_succ num positive
      _ ≤ den * (2 ^ 53 * 2 ^ excess mantissa exponent) := Nat.mul_le_mul_left den small
      _ = 2 ^ 53 * (den * 2 ^ excess mantissa exponent) := by ring

theorem ofModel_round (represents : Represents (.ofMantissaAndAccuracy mantissa accuracy) num den)
    (positive : 0 < den) (fits : exponent ≤ (binade mantissa exponent : Int) - 1074) :
    Float.ofModel (Float.Model.pack
        (roundWithAccuracy Format.binary64 (sign negative) mantissa exponent accuracy)) =
      ofWord negative (min (binade mantissa exponent * 2 ^ 52 +
        roundDiv num (den * 2 ^ excess mantissa exponent)) infinityWord) := by
  have whole : mantissa = num / den := by
    have same := represents.mantissa
    cases accuracy with
    | exact => exact same
    | inexact order => cases order <;> exact same
  have rounds := rounds_binade positive whole fits
  have rounded := (represents.shiftRight positive (excess mantissa exponent)).roundedMantissa
  have first : shiftToTargetExponent Format.binary64 mantissa exponent accuracy =
      (ExtendedMantissa.ofMantissaAndAccuracy mantissa accuracy >>> excess mantissa exponent,
        (binade mantissa exponent : Int) - 1074) := by
    simp only [shiftToTargetExponent, shiftToExponent, targetExponent_binade]
    exact Prod.ext rfl (by dsimp only [excess]; omega)
  unfold roundWithAccuracy
  simp only [first, rounded]
  have large := rounds.large
  have small := rounds.small
  generalize roundDiv num (den * 2 ^ excess mantissa exponent) = result at *
  generalize binade mantissa exponent = shift at *
  by_cases carry : result = 2 ^ 53
  · subst carry
    simp only [shiftToTargetExponent_carry]
    have word : shift * 2 ^ 52 + 2 ^ 53 = (shift + 1) * 2 ^ 52 + 2 ^ 52 := by omega
    rw [dif_neg (by decide), word]
    exact ofModel_pack_finite (by decide) (by decide) (.inr (Nat.le_refl _))
  · have bound : result < 2 ^ 53 := by omega
    simp only [shiftToTargetExponent_fits bound small]
    by_cases zero : result = 0
    · subst zero
      obtain rfl : shift = 0 := by omega
      rw [dif_pos rfl]
      exact ofModel_pack zero_finite
    · rw [dif_neg zero]
      exact ofModel_pack_finite (Nat.pos_of_ne_zero zero) bound small

theorem div_eq_of_cross {a b c d : Nat} (left : 0 < b) (right : 0 < d) (cross : a * d = c * b) :
    a / b = c / d := by
  rw [← Nat.mul_div_mul_right a b right, cross, Nat.mul_comm b d, Nat.mul_div_mul_right c d left]

theorem roundDiv_eq_of_cross {a b c d : Nat} (left : 0 < b) (right : 0 < d)
    (cross : a * d = c * b) : roundDiv a b = roundDiv c d := by
  rw [← roundDiv_mul_right a b right, cross, Nat.mul_comm b d, roundDiv_mul_right c d left]

theorem log2_scaled (positive : 0 < den) (nonzero : num / den ≠ 0) (shift : Nat) :
    (num * 2 ^ shift / den).log2 = (num / den).log2 + shift := by
  have low := Nat.log2_self_le nonzero
  have high : num / den + 1 ≤ 2 ^ ((num / den).log2 + 1) := Nat.lt_log2_self
  have scaled : 2 ^ ((num / den).log2 + shift) ≤ num * 2 ^ shift / den := by
    rw [Nat.le_div_iff_mul_le positive, Nat.pow_add]
    calc 2 ^ (num / den).log2 * 2 ^ shift * den
        = 2 ^ (num / den).log2 * den * 2 ^ shift := by ring
      _ ≤ num * 2 ^ shift :=
        Nat.mul_le_mul_right _ ((Nat.le_div_iff_mul_le positive).mp low)
  have below : num * 2 ^ shift / den < 2 ^ ((num / den).log2 + shift + 1) := by
    rw [Nat.div_lt_iff_lt_mul positive]
    calc num * 2 ^ shift < den * (num / den + 1) * 2 ^ shift :=
          Nat.mul_lt_mul_of_pos_right (Nat.lt_mul_div_succ num positive) (Nat.two_pow_pos _)
      _ ≤ den * 2 ^ ((num / den).log2 + 1) * 2 ^ shift :=
          Nat.mul_le_mul_right _ (Nat.mul_le_mul_left den high)
      _ = 2 ^ ((num / den).log2 + shift + 1) * den := by
          rw [Nat.add_right_comm, Nat.pow_add 2 _ shift]
          ring
  have positivePower : 0 < 2 ^ ((num / den).log2 + shift) := Nat.two_pow_pos _
  exact (Nat.log2_eq_iff (by omega)).mpr ⟨scaled, below⟩

/-- The binade is the one that the exact value, in the smallest units, is rounded in. -/
theorem log2_exact (positive : 0 < den) (whole : mantissa = num / den)
    (tiny : mantissa = 0 → exponent ≤ -1074) :
    (num * 2 ^ (exponent + 1074).toNat / (den * 2 ^ (-(exponent + 1074)).toNat)).log2 - 52 =
      binade mantissa exponent := by
  by_cases small : exponent ≤ -1074
  · have up : (exponent + 1074).toNat = 0 := by omega
    rw [up, Nat.pow_zero, Nat.mul_one, ← Nat.div_div_eq_div_mul, ← whole, Nat.log2_eq_log_two,
      Nat.log_div_base_pow, ← Nat.log2_eq_log_two]
    unfold binade
    omega
  · have down : (-(exponent + 1074)).toNat = 0 := by omega
    have nonzero : num / den ≠ 0 := fun zero => small (tiny (whole.trans zero))
    rw [down, Nat.pow_zero, Nat.mul_one, log2_scaled positive nonzero, ← whole]
    unfold binade
    omega

/-- The exact value is `exactNum / exactDen`, which is `num / den` times a power of two. -/
theorem nearestWord_round {exactNum exactDen : Nat} (positive : 0 < den)
    (exactPositive : 0 < exactDen) (whole : mantissa = num / den)
    (fits : exponent ≤ (binade mantissa exponent : Int) - 1074)
    (tiny : mantissa = 0 → exponent ≤ -1074)
    (exact : exactNum * unitsPerOne * (den * 2 ^ (-(exponent + 1074)).toNat) =
      num * 2 ^ (exponent + 1074).toNat * exactDen) :
    nearestWord exactNum exactDen = min (binade mantissa exponent * 2 ^ 52 +
      roundDiv num (den * 2 ^ excess mantissa exponent)) infinityWord := by
  have down : 0 < den * 2 ^ (-(exponent + 1074)).toNat := Nat.mul_pos positive (Nat.two_pow_pos _)
  have scale : 0 < den * 2 ^ excess mantissa exponent := Nat.mul_pos positive (Nat.two_pow_pos _)
  have shift : (exactNum * unitsPerOne / exactDen).log2 - 52 = binade mantissa exponent := by
    rw [div_eq_of_cross exactPositive down exact, log2_exact positive whole tiny]
  have powers : binade mantissa exponent + (-(exponent + 1074)).toNat =
      excess mantissa exponent + (exponent + 1074).toNat := by
    unfold excess
    omega
  have cross : exactNum * unitsPerOne * (den * 2 ^ excess mantissa exponent) =
      num * (exactDen * 2 ^ binade mantissa exponent) := by
    have cancel : 0 < 2 ^ (-(exponent + 1074)).toNat := Nat.two_pow_pos _
    apply Nat.eq_of_mul_eq_mul_right cancel
    calc exactNum * unitsPerOne * (den * 2 ^ excess mantissa exponent) *
          2 ^ (-(exponent + 1074)).toNat
        = exactNum * unitsPerOne * (den * 2 ^ (-(exponent + 1074)).toNat) *
            2 ^ excess mantissa exponent := by ring
      _ = num * exactDen * 2 ^ (excess mantissa exponent + (exponent + 1074).toNat) := by
          rw [exact, Nat.pow_add]
          ring
      _ = num * (exactDen * 2 ^ binade mantissa exponent) * 2 ^ (-(exponent + 1074)).toNat := by
          rw [← powers, Nat.pow_add]
          ring
  have rounded := roundDiv_eq_of_cross (Nat.mul_pos exactPositive (Nat.two_pow_pos _)) scale cross
  unfold nearestWord
  simp only [shift]
  exact congrArg (fun field => min (binade mantissa exponent * 2 ^ 52 + field) infinityWord) rounded

end Round

section Operations

variable {negative other : Bool} {word left right : Nat}

theorem unitsPerOne_power : ∃ power, power = 1074 ∧ unitsPerOne = 2 ^ power := by
  unfold unitsPerOne
  generalize 1074 = power
  exact ⟨power, rfl, rfl⟩

/-- Mantissa and exponent of a positive finite number. -/
structure Scaled (word mantissa : Nat) (exponent : Int) : Prop where
  units : units word = mantissa * 2 ^ (exponent + 1074).toNat
  lowest : -1074 ≤ exponent
  normal : exponent = -1074 ∨ 2 ^ 52 ≤ mantissa

theorem unpacked_scaled (positive : word ≠ 0) :
    ∃ mantissa exponent nonzero, Scaled word mantissa exponent ∧ ∀ negative,
      unpacked negative word = .finite (sign negative) mantissa exponent nonzero := by
  by_cases subnormal : word < 2 ^ 52
  · refine ⟨word, -1074, Nat.pos_of_ne_zero positive, ⟨?_, Int.le_refl _, .inl rfl⟩, ?_⟩
    · rw [units_subnormal subnormal]
      simp
    · exact fun negative => unpacked_subnormal negative (Nat.pos_of_ne_zero positive) subnormal
  · have normal := Nat.le_of_not_lt subnormal
    refine ⟨_, _, Nat.add_pos_right _ (by decide), ⟨?_, ?_, .inr ?_⟩, fun negative =>
      unpacked_normal negative normal⟩
    · have places : (((word / 2 ^ 52 : Nat) : Int) - 1075 + 1074).toNat = word / 2 ^ 52 - 1 := by
        omega
      rw [places, units_def, if_neg subnormal]
    · omega
    · omega

theorem sign_mul (negative other : Bool) :
    sign negative * sign other = sign (negative != other) := by
  cases negative <;> cases other <;> rfl

theorem sign_div (negative other : Bool) :
    sign negative / sign other = sign (negative != other) := by
  cases negative <;> cases other <;> rfl

section Exact

variable {leftMantissa rightMantissa : Nat} {leftExponent rightExponent : Int}
variable (leftScaled : Scaled left leftMantissa leftExponent)
variable (rightScaled : Scaled right rightMantissa rightExponent)

include leftScaled rightScaled

theorem mul_fits (leftPositive : 0 < leftMantissa) (rightPositive : 0 < rightMantissa) :
    leftExponent + rightExponent ≤
      (binade (leftMantissa * rightMantissa) (leftExponent + rightExponent) : Int) - 1074 := by
  have large (many : 2 ^ 52 ≤ leftMantissa * rightMantissa) :
      52 ≤ (leftMantissa * rightMantissa).log2 := (Nat.le_log2 (by omega)).mpr many
  unfold binade
  rcases leftScaled.normal with leftLowest | leftLarge
  · rcases rightScaled.normal with rightLowest | rightLarge
    · omega
    · have := large (Nat.le_trans rightLarge (Nat.le_mul_of_pos_left _ leftPositive))
      omega
  · have := large (Nat.le_trans leftLarge (Nat.le_mul_of_pos_right _ rightPositive))
    omega

theorem mul_exact :
    units left * units right * unitsPerOne *
        (1 * 2 ^ (-(leftExponent + rightExponent + 1074)).toNat) =
      leftMantissa * rightMantissa * 2 ^ (leftExponent + rightExponent + 1074).toNat *
        (unitsPerOne * unitsPerOne) := by
  obtain ⟨power, top, unit⟩ := unitsPerOne_power
  have leftLowest := leftScaled.lowest
  have rightLowest := rightScaled.lowest
  have powers : (leftExponent + 1074).toNat + (rightExponent + 1074).toNat +
      (-(leftExponent + rightExponent + 1074)).toNat =
        (leftExponent + rightExponent + 1074).toNat + power := by omega
  rw [leftScaled.units, rightScaled.units, unit]
  calc leftMantissa * 2 ^ (leftExponent + 1074).toNat *
        (rightMantissa * 2 ^ (rightExponent + 1074).toNat) * 2 ^ power *
        (1 * 2 ^ (-(leftExponent + rightExponent + 1074)).toNat)
      = leftMantissa * rightMantissa * 2 ^ ((leftExponent + 1074).toNat +
          (rightExponent + 1074).toNat + (-(leftExponent + rightExponent + 1074)).toNat) *
          2 ^ power := by
        rw [Nat.pow_add, Nat.pow_add]
        ring
    _ = leftMantissa * rightMantissa * 2 ^ (leftExponent + rightExponent + 1074).toNat *
          (2 ^ power * 2 ^ power) := by
        rw [powers, Nat.pow_add]
        ring

end Exact

theorem unpacked_zero (negative : Bool) : unpacked negative 0 = .zero (sign negative) := rfl

theorem ofModel_pack_zero (negative : Bool) :
    Float.ofModel (Float.Model.pack (.zero (sign negative))) = ofWord negative 0 :=
  ofModel_pack zero_finite

/-- The product is the double nearest to the exact one. -/
theorem ofWord_mul_ofWord (leftFinite : left < infinityWord) (rightFinite : right < infinityWord) :
    ofWord negative left * ofWord other right =
      ofWord (negative != other)
        (nearestWord (units left * units right) (unitsPerOne * unitsPerOne)) := by
  have scale : 0 < unitsPerOne * unitsPerOne := Nat.mul_pos unitsPerOne_pos unitsPerOne_pos
  rw [ofWord_mul leftFinite rightFinite]
  by_cases leftZero : left = 0
  · subst leftZero
    have product : UnpackedFloat.mul Format.binary64 (unpacked negative 0) (unpacked other right) =
        .zero (sign (negative != other)) := by
      rw [← sign_mul, unpacked_zero]
      by_cases rightZero : right = 0
      · rw [rightZero, unpacked_zero]
        rfl
      · obtain ⟨_, _, _, _, unpack⟩ := unpacked_scaled rightZero
        rw [unpack]
        rfl
    rw [product, units_zero, Nat.zero_mul, nearestWord_zero scale, ofModel_pack_zero]
  obtain ⟨leftMantissa, leftExponent, leftPositive, leftScaled, leftUnpacked⟩ :=
    unpacked_scaled leftZero
  by_cases rightZero : right = 0
  · subst rightZero
    have product : UnpackedFloat.mul Format.binary64 (unpacked negative left) (unpacked other 0) =
        .zero (sign (negative != other)) := by
      rw [← sign_mul, unpacked_zero, leftUnpacked]
      rfl
    rw [product, units_zero, Nat.mul_zero, nearestWord_zero scale, ofModel_pack_zero]
  obtain ⟨rightMantissa, rightExponent, rightPositive, rightScaled, rightUnpacked⟩ :=
    unpacked_scaled rightZero
  have whole : leftMantissa * rightMantissa = leftMantissa * rightMantissa / 1 :=
    (Nat.div_one _).symm
  have nonzero : leftMantissa * rightMantissa ≠ 0 :=
    Nat.ne_of_gt (Nat.mul_pos leftPositive rightPositive)
  have fits := mul_fits leftScaled rightScaled leftPositive rightPositive
  rw [leftUnpacked, rightUnpacked, nearestWord_round Nat.one_pos scale whole fits
    (fun zero => absurd zero nonzero) (mul_exact leftScaled rightScaled)]
  simp only [UnpackedFloat.mul, sign_mul]
  exact ofModel_round (represents_exact _) Nat.one_pos fits

theorem ofWord_div (leftFinite : left < infinityWord) (rightFinite : right < infinityWord) :
    ofWord negative left / ofWord other right =
      .ofModel (.pack (UnpackedFloat.div Format.binary64 (unpacked negative left)
        (unpacked other right))) := by
  rw [← unpack_ofWord leftFinite, ← unpack_ofWord rightFinite]
  rfl

section Quotient

variable {leftMantissa rightMantissa : Nat} {leftExponent rightExponent : Int}

/-- The exponent of a quotient before it is rounded: low enough for all binary digits. -/
def quotientExponent (leftMantissa : Nat) (leftExponent : Int) (rightMantissa : Nat)
    (rightExponent : Int) : Int :=
  min (leftExponent - rightExponent)
    (max ((leftMantissa.log2 + 1 + leftExponent) - (rightMantissa.log2 + 1 + rightExponent) - 53)
      (-1074))

/-- By how many places the dividend is shifted. -/
def quotientShift (leftMantissa : Nat) (leftExponent : Int) (rightMantissa : Nat)
    (rightExponent : Int) : Nat :=
  (leftExponent - rightExponent -
    quotientExponent leftMantissa leftExponent rightMantissa rightExponent).toNat

theorem quotient_large (leftPositive : 0 < leftMantissa) (rightPositive : 0 < rightMantissa) :
    quotientExponent leftMantissa leftExponent rightMantissa rightExponent ≤ -1074 ∨
      2 ^ 52 ≤ leftMantissa * 2 ^ quotientShift leftMantissa leftExponent rightMantissa
        rightExponent / rightMantissa := by
  have low := Nat.log2_self_le (Nat.ne_of_gt leftPositive)
  have high : rightMantissa < 2 ^ (rightMantissa.log2 + 1) := Nat.lt_log2_self
  by_cases lowest : quotientExponent leftMantissa leftExponent rightMantissa rightExponent ≤ -1074
  · exact .inl lowest
  right
  have places : 52 + (rightMantissa.log2 + 1) ≤ leftMantissa.log2 +
      quotientShift leftMantissa leftExponent rightMantissa rightExponent := by
    unfold quotientShift quotientExponent at *
    omega
  rw [Nat.le_div_iff_mul_le rightPositive]
  calc 2 ^ 52 * rightMantissa ≤ 2 ^ 52 * 2 ^ (rightMantissa.log2 + 1) :=
        Nat.mul_le_mul_left _ (Nat.le_of_lt high)
    _ ≤ 2 ^ (leftMantissa.log2 +
          quotientShift leftMantissa leftExponent rightMantissa rightExponent) := by
        rw [← Nat.pow_add]
        exact Nat.pow_le_pow_right (by decide) places
    _ ≤ leftMantissa * 2 ^ quotientShift leftMantissa leftExponent rightMantissa
          rightExponent := by
        rw [Nat.pow_add]
        exact Nat.mul_le_mul_right _ low

theorem quotient_exact (leftScaled : Scaled left leftMantissa leftExponent)
    (rightScaled : Scaled right rightMantissa rightExponent) :
    let exponent := quotientExponent leftMantissa leftExponent rightMantissa rightExponent
    units left * unitsPerOne * (rightMantissa * 2 ^ (-(exponent + 1074)).toNat) =
      leftMantissa * 2 ^ quotientShift leftMantissa leftExponent rightMantissa rightExponent *
        2 ^ (exponent + 1074).toNat * units right := by
  intro exponent
  obtain ⟨power, top, unit⟩ := unitsPerOne_power
  have leftLowest := leftScaled.lowest
  have rightLowest := rightScaled.lowest
  have powers : (leftExponent + 1074).toNat + power + (-(exponent + 1074)).toNat =
      quotientShift leftMantissa leftExponent rightMantissa rightExponent +
        (exponent + 1074).toNat + (rightExponent + 1074).toNat := by
    unfold quotientShift
    have below : exponent ≤ leftExponent - rightExponent := Int.min_le_left _ _
    change _ = (leftExponent - rightExponent - exponent).toNat + _ + _
    omega
  rw [leftScaled.units, rightScaled.units, unit]
  calc leftMantissa * 2 ^ (leftExponent + 1074).toNat * 2 ^ power *
        (rightMantissa * 2 ^ (-(exponent + 1074)).toNat)
      = leftMantissa * rightMantissa * 2 ^ ((leftExponent + 1074).toNat + power +
          (-(exponent + 1074)).toNat) := by
        rw [Nat.pow_add, Nat.pow_add]
        ring
    _ = _ := by
        rw [powers, Nat.pow_add, Nat.pow_add]
        ring

end Quotient

/-- The quotient is the double nearest to the exact one. -/
theorem ofWord_div_ofWord (leftFinite : left < infinityWord) (rightFinite : right < infinityWord)
    (rightPositive : right ≠ 0) :
    ofWord negative left / ofWord other right =
      ofWord (negative != other) (nearestWord (units left) (units right)) := by
  have scale : 0 < units right := by
    have less := units_strictMono (Nat.pos_of_ne_zero rightPositive)
    rwa [units_zero] at less
  obtain ⟨rightMantissa, rightExponent, rightNonzero, rightScaled, rightUnpacked⟩ :=
    unpacked_scaled rightPositive
  rw [ofWord_div leftFinite rightFinite, rightUnpacked]
  by_cases leftZero : left = 0
  · subst leftZero
    rw [units_zero, nearestWord_zero scale, ← ofModel_pack_zero, ← sign_div]
    rfl
  obtain ⟨leftMantissa, leftExponent, leftNonzero, leftScaled, leftUnpacked⟩ :=
    unpacked_scaled leftZero
  have large : quotientExponent leftMantissa leftExponent rightMantissa rightExponent ≤ -1074 ∨
      2 ^ 52 ≤ leftMantissa * 2 ^ quotientShift leftMantissa leftExponent rightMantissa
        rightExponent / rightMantissa := quotient_large leftNonzero rightNonzero
  have exact := quotient_exact leftScaled rightScaled
  have core : divCore Format.binary64 leftMantissa leftExponent rightMantissa rightExponent =
      (leftMantissa * 2 ^ quotientShift leftMantissa leftExponent rightMantissa rightExponent /
          rightMantissa,
        quotientExponent leftMantissa leftExponent rightMantissa rightExponent,
        accuracyOfFraction (leftMantissa * 2 ^ quotientShift leftMantissa leftExponent
          rightMantissa rightExponent % rightMantissa) rightMantissa) := by
    rw [← Nat.shiftLeft_eq]
    rfl
  rw [leftUnpacked]
  simp only [UnpackedFloat.div, core, sign_div]
  generalize quotientExponent leftMantissa leftExponent rightMantissa rightExponent = exponent at *
  generalize leftMantissa * 2 ^ quotientShift leftMantissa leftExponent rightMantissa
    rightExponent = dividend at *
  have fits : exponent ≤ (binade (dividend / rightMantissa) exponent : Int) - 1074 := by
    unfold binade
    rcases large with lowest | large
    · omega
    · have log : 52 ≤ (dividend / rightMantissa).log2 := (Nat.le_log2 (by omega)).mpr large
      omega
  rw [nearestWord_round rightNonzero scale rfl fits ?_ exact]
  · exact ofModel_round (represents_fraction dividend rightNonzero) rightNonzero fits
  · intro zero
    rw [zero] at large
    omega

end Operations

end ComplexCalculator.Binary64
