import ComplexCalculator.Proofs.Binary64.Words

namespace ComplexCalculator.Binary64

open Float.Model Float.Model.UnpackedFloat

/-- Infinite or undefined. -/
inductive Exceptional : UnpackedFloat → Prop where
  | infinity (sign : Sign) : Exceptional (.infinity sign)
  | notANumber : Exceptional .notANumber

variable {x y : Float} {a b : UnpackedFloat}

section Unpacking

theorem exceptional_unpack (infinite : Binary64.isFinite x = false) :
    Exceptional x.toModel.unpack := by
  have above : ¬ Binary64.word x < infinityWord := of_decide_eq_false infinite
  rw [infinityWord_def, word_def] at above
  have pattern : x.toBits.toNat = x.toModel.toBits.toBitVec.toNat := rfl
  have last : @unpackExponent Format.binary64 x.toModel.toBits.toBitVec = -1#_ := by
    apply BitVec.eq_of_toNat_eq
    rw [unpackExponent_bits, ← pattern]
    change x.toBits.toNat / 2 ^ 52 % 2 ^ 11 = 2047
    omega
  unfold Float.Model.unpack UnpackedFloat.unpack
  simp only [if_pos last]
  split
  · exact .infinity _
  · exact .notANumber

theorem Exceptional.isFinite_pack (exceptional : Exceptional a) :
    Binary64.isFinite (.ofModel (.pack a)) = false := by
  cases exceptional with
  | infinity sign => cases sign <;> decide
  | notANumber => decide

end Unpacking

namespace Exceptional

theorem add_left (exceptional : Exceptional a) (b : UnpackedFloat) :
    Exceptional (UnpackedFloat.add Format.binary64 a b) := by
  cases exceptional with
  | notANumber => exact .notANumber
  | infinity sign =>
      cases b with
      | infinity other =>
          unfold UnpackedFloat.add
          dsimp only
          split
          · exact .infinity sign
          · exact .notANumber
      | notANumber => exact .notANumber
      | zero other => exact .infinity sign
      | finite other mantissa exponent positive => exact .infinity sign

theorem add_right (exceptional : Exceptional b) (a : UnpackedFloat) :
    Exceptional (UnpackedFloat.add Format.binary64 a b) := by
  cases a with
  | infinity sign => exact add_left (.infinity sign) b
  | notANumber => exact .notANumber
  | zero sign => cases exceptional <;> constructor
  | finite sign mantissa exponent positive => cases exceptional <;> constructor

theorem mul_left (exceptional : Exceptional a) (b : UnpackedFloat) :
    Exceptional (UnpackedFloat.mul Format.binary64 a b) := by
  cases exceptional with
  | notANumber => exact .notANumber
  | infinity sign => cases b <;> constructor

theorem sqrt (exceptional : Exceptional a) :
    Exceptional (UnpackedFloat.sqrt Format.binary64 a) := by
  cases exceptional with
  | notANumber => exact .notANumber
  | infinity sign => cases sign <;> constructor

end Exceptional

section Operations

/-- An operation that passes on what is not finite has a finite result for finite numbers only. -/
theorem isFinite_of_strict (finite : Binary64.isFinite (.ofModel (.pack a)) = true)
    (strict : Exceptional x.toModel.unpack → Exceptional a) : Binary64.isFinite x = true := by
  by_contra infinite
  have exceptional := strict (exceptional_unpack (eq_false_of_ne_true infinite))
  exact absurd finite (ne_true_of_eq_false exceptional.isFinite_pack)

theorem isFinite_of_add (finite : Binary64.isFinite (x + y) = true) :
    Binary64.isFinite x = true ∧ Binary64.isFinite y = true := by
  have sum : x + y = .ofModel (.pack (UnpackedFloat.add Format.binary64 x.toModel.unpack
    y.toModel.unpack)) := rfl
  rw [sum] at finite
  constructor
  · exact isFinite_of_strict finite fun exceptional => exceptional.add_left _
  · exact isFinite_of_strict finite fun exceptional => exceptional.add_right _

theorem isFinite_of_square (finite : Binary64.isFinite (x * x) = true) :
    Binary64.isFinite x = true := by
  have square : x * x = .ofModel (.pack (UnpackedFloat.mul Format.binary64 x.toModel.unpack
    x.toModel.unpack)) := rfl
  rw [square] at finite
  exact isFinite_of_strict finite fun exceptional => exceptional.mul_left _

theorem sqrt_eq (x : Float) :
    x.sqrt = .ofModel (.pack (UnpackedFloat.sqrt Format.binary64 x.toModel.unpack)) := rfl

theorem isFinite_of_sqrt (finite : Binary64.isFinite x.sqrt = true) :
    Binary64.isFinite x = true := by
  rw [sqrt_eq] at finite
  exact isFinite_of_strict finite Exceptional.sqrt

end Operations

section Sign

theorem roundWithAccuracy_cases (sign : Sign) (mantissa : Nat) (exponent : Int)
    (accuracy : Accuracy) :
    roundWithAccuracy Format.binary64 sign mantissa exponent accuracy = .zero sign ∨
      ∃ rounded scale positive, roundWithAccuracy Format.binary64 sign mantissa exponent accuracy =
        .finite sign rounded scale positive := by
  unfold roundWithAccuracy
  dsimp only
  split
  · exact .inl rfl
  · rename_i nonzero
    exact .inr ⟨_, _, Nat.pos_of_ne_zero nonzero, rfl⟩

/-- What a square root is. -/
theorem sqrt_cases (a : UnpackedFloat) :
    Exceptional (UnpackedFloat.sqrt Format.binary64 a) ∨
      (∃ sign, UnpackedFloat.sqrt Format.binary64 a = .zero sign) ∨
      ∃ mantissa exponent positive,
        UnpackedFloat.sqrt Format.binary64 a = .finite .positive mantissa exponent positive := by
  cases a with
  | infinity sign => exact .inl (Exceptional.infinity sign).sqrt
  | notANumber => exact .inl .notANumber
  | zero sign => exact .inr (.inl ⟨sign, rfl⟩)
  | finite sign mantissa exponent positive =>
      cases sign with
      | negative => exact .inl .notANumber
      | positive =>
          unfold UnpackedFloat.sqrt
          dsimp only
          exact .inr ((roundWithAccuracy_cases _ _ _ _).imp (fun zero => ⟨_, zero⟩) id)

theorem isNegative_pack_positive {mantissa : Nat} (exponent : Int) (positive : 0 < mantissa) :
    isNegative (.ofModel (.pack (.finite .positive mantissa exponent positive))) = false := by
  have components (exponent : BitVec 11) (mantissa : BitVec 52) :
      (packComponents Format.binary64 .positive exponent mantissa).toNat < 2 ^ 63 := by
    rw [toNat_packComponents]
    change 0 * 2 ^ 63 + exponent.toNat * 2 ^ 52 + mantissa.toNat < 2 ^ 63
    omega
  have packed : (UnpackedFloat.pack Format.binary64
      (.finite .positive mantissa exponent positive)).toNat < 2 ^ 63 := by
    simp only [UnpackedFloat.pack]
    split
    · decide
    · split
      · exact components _ _
      · exact components _ _
  rw [isNegative_def]
  exact decide_eq_false (Nat.not_le_of_lt packed)

/-- The only number under a minus sign that a square root can be is the zero. -/
theorem isNegative_sqrt (finite : Binary64.isFinite x.sqrt = true) (nonzero : word x.sqrt ≠ 0) :
    isNegative x.sqrt = false := by
  rw [sqrt_eq] at finite nonzero ⊢
  rcases sqrt_cases x.toModel.unpack with exceptional | ⟨sign, zero⟩ | ⟨_, _, _, number⟩
  · exact absurd finite (ne_true_of_eq_false exceptional.isFinite_pack)
  · rw [zero] at nonzero
    cases sign <;> exact absurd (by decide) nonzero
  · rw [number]
    exact isNegative_pack_positive _ _

end Sign

end ComplexCalculator.Binary64
