import ComplexCalculator.Proofs.Binary64.Words

namespace ComplexCalculator.Binary64

open Float.Model Float.Model.UnpackedFloat

variable {negative other : Bool} {word : Nat}

/-- The number with this sign and word, where a zero has no sign. -/
def unsignedZero (negative : Bool) (word : Nat) : Float := ofWord (negative && word != 0) word

theorem zero_eq_ofWord : (0 : Float) = ofWord false 0 := by decide

theorem one_eq_ofWord : (1 : Float) = ofWord false (1023 * 2 ^ 52) := by decide

theorem zero_finite : 0 < infinityWord := by decide

section Operations

variable {left right : Nat}

theorem ofWord_add (leftFinite : left < infinityWord) (rightFinite : right < infinityWord) :
    ofWord negative left + ofWord other right =
      .ofModel (.pack (UnpackedFloat.add Format.binary64 (unpacked negative left)
        (unpacked other right))) := by
  rw [← unpack_ofWord leftFinite, ← unpack_ofWord rightFinite]
  rfl

theorem ofWord_sub (leftFinite : left < infinityWord) (rightFinite : right < infinityWord) :
    ofWord negative left - ofWord other right =
      .ofModel (.pack (UnpackedFloat.sub Format.binary64 (unpacked negative left)
        (unpacked other right))) := by
  rw [← unpack_ofWord leftFinite, ← unpack_ofWord rightFinite]
  rfl

theorem ofWord_mul (leftFinite : left < infinityWord) (rightFinite : right < infinityWord) :
    ofWord negative left * ofWord other right =
      .ofModel (.pack (UnpackedFloat.mul Format.binary64 (unpacked negative left)
        (unpacked other right))) := by
  rw [← unpack_ofWord leftFinite, ← unpack_ofWord rightFinite]
  rfl

theorem ofWord_beq (leftFinite : left < infinityWord) (rightFinite : right < infinityWord) :
    (ofWord negative left == ofWord other right) =
      UnpackedFloat.beq (unpacked negative left) (unpacked other right) := by
  rw [← unpack_ofWord leftFinite, ← unpack_ofWord rightFinite]
  rfl

end Operations

theorem unpacked_positive (positive : word ≠ 0) :
    ∃ mantissa exponent nonzero, ∀ negative,
      unpacked negative word = .finite (sign negative) mantissa exponent nonzero := by
  by_cases subnormal : word < 2 ^ 52
  · exact ⟨_, _, _, fun negative =>
      unpacked_subnormal negative (Nat.pos_of_ne_zero positive) subnormal⟩
  · exact ⟨_, _, _, fun negative => unpacked_normal negative (Nat.le_of_not_lt subnormal)⟩

theorem unsignedZero_of_ne (positive : word ≠ 0) :
    unsignedZero negative word = ofWord negative word := by
  have nonzero : (word != 0) = true := bne_iff_ne.mpr positive
  rw [unsignedZero, nonzero, Bool.and_true]

theorem unsignedZero_zero (negative : Bool) : unsignedZero negative 0 = 0 := by
  rw [zero_eq_ofWord, unsignedZero, bne_self_eq_false, Bool.and_false]

theorem ofWord_neg (finite : word < infinityWord) :
    -ofWord negative word = .ofModel (.pack (unpacked negative word).neg) := by
  rw [← unpack_ofWord finite]
  rfl

theorem neg_unpacked (negative : Bool) (word : Nat) :
    (unpacked negative word).neg = unpacked (!negative) word := by
  have flipped : -sign negative = sign (!negative) := by cases negative <;> rfl
  by_cases zero : word = 0
  · subst zero
    exact congrArg UnpackedFloat.zero flipped
  · obtain ⟨mantissa, exponent, nonzero, unpack⟩ := unpacked_positive zero
    rw [unpack, unpack, ← flipped]
    rfl

theorem isFinite_neg {x : Float} (finite : Binary64.isFinite x = true) :
    Binary64.isFinite (-x) = true := by
  have bound : Binary64.word x < infinityWord := of_decide_eq_true finite
  rw [← ofWord_word finite, ofWord_neg bound, neg_unpacked, ofModel_pack bound]
  exact isFinite_ofWord bound

section Zero

variable (finite : word < infinityWord) (nonzero : word ≠ 0)

include finite nonzero

/-- Adding a zero of either sign to a number other than zero changes nothing. -/
theorem ofWord_add_zero : ofWord negative word + ofWord other 0 = ofWord negative word := by
  obtain ⟨mantissa, exponent, positive, unpack⟩ := unpacked_positive nonzero
  have exact : UnpackedFloat.add Format.binary64 (unpacked negative word) (unpacked other 0) =
      unpacked negative word := by
    rw [unpack]
    rfl
  rw [ofWord_add finite zero_finite, exact, ofModel_pack finite]

theorem zero_add_ofWord : ofWord other 0 + ofWord negative word = ofWord negative word := by
  obtain ⟨mantissa, exponent, positive, unpack⟩ := unpacked_positive nonzero
  have exact : UnpackedFloat.add Format.binary64 (unpacked other 0) (unpacked negative word) =
      unpacked negative word := by
    rw [unpack]
    rfl
  rw [ofWord_add zero_finite finite, exact, ofModel_pack finite]

theorem ofWord_sub_zero : ofWord negative word - ofWord other 0 = ofWord negative word := by
  obtain ⟨mantissa, exponent, positive, unpack⟩ := unpacked_positive nonzero
  have exact : UnpackedFloat.sub Format.binary64 (unpacked negative word) (unpacked other 0) =
      unpacked negative word := by
    rw [unpack]
    rfl
  rw [ofWord_sub finite zero_finite, exact, ofModel_pack finite]

theorem zero_sub_ofWord : ofWord other 0 - ofWord negative word = ofWord (!negative) word := by
  obtain ⟨mantissa, exponent, positive, unpack⟩ := unpacked_positive nonzero
  have exact : UnpackedFloat.sub Format.binary64 (unpacked other 0) (unpacked negative word) =
      unpacked (!negative) word := by
    rw [unpack, unpack]
    cases negative <;> rfl
  rw [ofWord_sub zero_finite finite, exact, ofModel_pack finite]

end Zero

theorem zero_add_zero : (0 : Float) + 0 = 0 := by decide

theorem zero_sub_zero : (0 : Float) - 0 = 0 := by decide

theorem unsignedZero_add_zero (finite : word < infinityWord) :
    unsignedZero negative word + 0 = unsignedZero negative word := by
  by_cases zero : word = 0
  · subst zero
    rw [unsignedZero_zero, zero_add_zero]
  · rw [unsignedZero_of_ne zero, zero_eq_ofWord, ofWord_add_zero finite zero]

theorem zero_add_unsignedZero (finite : word < infinityWord) :
    0 + unsignedZero negative word = unsignedZero negative word := by
  by_cases zero : word = 0
  · subst zero
    rw [unsignedZero_zero, zero_add_zero]
  · rw [unsignedZero_of_ne zero, zero_eq_ofWord, zero_add_ofWord finite zero]

theorem unsignedZero_sub_zero (finite : word < infinityWord) :
    unsignedZero negative word - 0 = unsignedZero negative word := by
  by_cases zero : word = 0
  · subst zero
    rw [unsignedZero_zero, zero_sub_zero]
  · rw [unsignedZero_of_ne zero, zero_eq_ofWord, ofWord_sub_zero finite zero]

theorem zero_sub_unsignedZero (finite : word < infinityWord) :
    0 - unsignedZero false word = unsignedZero true word := by
  by_cases zero : word = 0
  · subst zero
    rw [unsignedZero_zero, unsignedZero_zero, zero_sub_zero]
  · rw [unsignedZero_of_ne zero, unsignedZero_of_ne zero, zero_eq_ofWord,
      zero_sub_ofWord finite zero, Bool.not_false]

theorem zero_mul_one : (0 : Float) * 1 = 0 := by decide

theorem zero_mul_zero : (0 : Float) * 0 = 0 := by decide

theorem unsignedZero_mul_zero (finite : word < infinityWord) :
    unsignedZero false word * 0 = 0 := by
  by_cases zero : word = 0
  · subst zero
    rw [unsignedZero_zero, zero_mul_zero]
  · obtain ⟨mantissa, exponent, nonzero, unpack⟩ := unpacked_positive zero
    have exact : UnpackedFloat.mul Format.binary64 (unpacked false word) (unpacked false 0) =
        unpacked false 0 := by
      rw [unpack]
      rfl
    rw [unsignedZero_of_ne zero, zero_eq_ofWord, ofWord_mul finite zero_finite, exact,
      ofModel_pack zero_finite]

section Rounding

def Canonical (mantissa : Nat) (exponent : Int) : Prop :=
  Format.binary64.targetExponent (totalExponent mantissa exponent) = exponent

theorem Canonical.targetExponent {mantissa : Nat} {exponent : Int}
    (canonical : Canonical mantissa exponent) :
    Format.binary64.targetExponent (totalExponent mantissa exponent) = exponent := canonical

theorem targetExponent_eq (total : Int) :
    Format.binary64.targetExponent total = max (total - 53) (-1074) := rfl

theorem shiftRight_exact (mantissa shift : Nat) :
    (⟨mantissa * 2 ^ shift, false, false⟩ : ExtendedMantissa) >>> shift =
      ⟨mantissa, false, false⟩ := by
  induction shift generalizing mantissa with
  | zero => simp [HShiftRight.hShiftRight, Nat.repeat]
  | succ shift ih =>
      have half : mantissa * 2 ^ (shift + 1) = mantissa * 2 * 2 ^ shift := by
        rw [Nat.pow_succ', Nat.mul_assoc]
      rw [half]
      change ExtendedMantissa.shiftRightOne
        ((⟨mantissa * 2 * 2 ^ shift, false, false⟩ : ExtendedMantissa) >>> shift) = _
      rw [ih]
      simp [ExtendedMantissa.shiftRightOne]

theorem log2_mul_two_pow {number : Nat} (positive : number ≠ 0) (shift : Nat) :
    (number * 2 ^ shift).log2 = number.log2 + shift := by
  have nonzero : number * 2 ^ shift ≠ 0 :=
    Nat.mul_ne_zero positive (Nat.ne_of_gt (Nat.two_pow_pos shift))
  rw [Nat.log2_eq_iff nonzero, Nat.add_right_comm, Nat.pow_add, Nat.pow_add]
  exact ⟨Nat.mul_le_mul_right _ (Nat.log2_self_le positive),
    Nat.mul_lt_mul_of_pos_right Nat.lt_log2_self (Nat.two_pow_pos shift)⟩

/-- Rounding a product with one changes nothing. -/
theorem roundWithAccuracy_one {mantissa : Nat} {exponent : Int} (sign : Sign)
    (positive : 0 < mantissa) (canonical : Canonical mantissa exponent) :
    roundWithAccuracy Format.binary64 sign (mantissa * 2 ^ 52) (exponent + (-52)) .exact =
      .finite sign mantissa exponent positive := by
  have total : totalExponent (mantissa * 2 ^ 52) (exponent + (-52)) =
      totalExponent mantissa exponent := by
    unfold totalExponent
    rw [log2_mul_two_pow (Nat.ne_of_gt positive)]
    omega
  have first : shiftToTargetExponent Format.binary64 (mantissa * 2 ^ 52) (exponent + (-52)) .exact =
      (⟨mantissa, false, false⟩, exponent) := by
    have shift : (exponent - (exponent + (-52))).toNat = 52 := by omega
    simp only [shiftToTargetExponent, shiftToExponent, total, canonical.targetExponent, shift]
    exact Prod.ext (shiftRight_exact mantissa 52) (by dsimp only; omega)
  have second : shiftToTargetExponent Format.binary64 mantissa exponent .exact =
      (⟨mantissa, false, false⟩, exponent) := by
    simp only [shiftToTargetExponent, shiftToExponent, canonical.targetExponent, Int.sub_self]
    exact Prod.ext rfl (by simp)
  simp only [roundWithAccuracy, first, ExtendedMantissa.roundedMantissa,
    ExtendedMantissa.accuracy, Accuracy.roundToNearestEven, second]
  rw [dif_neg (Nat.ne_of_gt positive)]

theorem unsignedZero_mul_one (finite : word < infinityWord) :
    unsignedZero false word * 1 = unsignedZero false word := by
  by_cases zero : word = 0
  · subst zero
    rw [unsignedZero_zero, zero_mul_one]
  · have exact : UnpackedFloat.mul Format.binary64 (unpacked false word)
        (unpacked false (1023 * 2 ^ 52)) = unpacked false word := by
      rw [infinityWord_def] at finite
      by_cases subnormal : word < 2 ^ 52
      · have log : word.log2 < 52 := (Nat.log2_lt zero).mpr subnormal
        have canonical : Canonical word (-1074) := by
          unfold Canonical totalExponent
          rw [targetExponent_eq]
          omega
        rw [unpacked_subnormal false (Nat.pos_of_ne_zero zero) subnormal]
        exact roundWithAccuracy_one _ _ canonical
      · have canonical : Canonical (word % 2 ^ 52 + 2 ^ 52) ((word / 2 ^ 52 : Nat) - 1075) := by
          unfold Canonical totalExponent
          rw [targetExponent_eq, log2_mantissa]
          omega
        rw [unpacked_normal false (Nat.le_of_not_lt subnormal)]
        exact roundWithAccuracy_one _ _ canonical
    rw [unsignedZero_of_ne zero, one_eq_ofWord, ofWord_mul finite (by decide), exact,
      ofModel_pack finite]

end Rounding

section Comparison

theorem unsignedZero_beq (finite : word < infinityWord) :
    (unsignedZero negative word == ofWord negative word) = true := by
  by_cases zero : word = 0
  · subst zero
    rw [unsignedZero_zero, zero_eq_ofWord, ofWord_beq zero_finite zero_finite]
    cases negative <;> rfl
  · obtain ⟨mantissa, exponent, nonzero, unpack⟩ := unpacked_positive zero
    rw [unsignedZero_of_ne zero, ofWord_beq finite finite, unpack]
    cases negative <;> simp [UnpackedFloat.beq, UnpackedFloat.compare, sign]

end Comparison

end ComplexCalculator.Binary64
