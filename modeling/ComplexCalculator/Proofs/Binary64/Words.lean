import Mathlib
import ComplexCalculator.Binary64

namespace ComplexCalculator.Binary64

open Float.Model Float.Model.UnpackedFloat

def sign (negative : Bool) : Sign := if negative then .negative else .positive

def bits (negative : Bool) (word : Nat) : Nat := (if negative then 2 ^ 63 else 0) + word

theorem infinityWord_def : infinityWord = 2047 * 2 ^ 52 := rfl

theorem word_def (x : Float) : Binary64.word x = x.toBits.toNat % 2 ^ 63 := rfl

theorem isNegative_def (x : Float) : isNegative x = decide (2 ^ 63 ≤ x.toBits.toNat) := rfl

variable {negative : Bool} {word : Nat}

theorem toNat_bits (negative : Bool) (finite : word < infinityWord) :
    (BitVec.ofNat 64 (bits negative word)).toNat = bits negative word := by
  rw [infinityWord_def] at finite
  unfold bits
  rw [BitVec.toNat_ofNat, Nat.mod_eq_of_lt]
  split <;> omega

theorem unpackMantissa_bits (b : BitVec 64) :
    (@unpackMantissa Format.binary64 b).toNat = b.toNat % 2 ^ 52 := by
  simp [unpackMantissa]

theorem unpackExponent_bits (b : BitVec 64) :
    (@unpackExponent Format.binary64 b).toNat = b.toNat / 2 ^ 52 % 2 ^ 11 := by
  simp [unpackExponent, Nat.shiftRight_eq_div_pow]

theorem unpackSign_bits (b : BitVec 64) :
    (@unpackSign Format.binary64 b).toNat = b.toNat / 2 ^ 63 % 2 := by
  simp [unpackSign, Nat.shiftRight_eq_div_pow]

/-- The finite number with this sign and word, as sign, mantissa and exponent. -/
def unpacked (negative : Bool) (word : Nat) : UnpackedFloat :=
  if zero : word = 0 then .zero (sign negative)
  else if word < 2 ^ 52 then .finite (sign negative) word (-1074) (Nat.pos_of_ne_zero zero)
  else .finite (sign negative) (word % 2 ^ 52 + 2 ^ 52) ((word / 2 ^ 52 : Nat) - 1075)
    (Nat.add_pos_right _ (by decide))

theorem unpacked_subnormal (negative : Bool) (positive : 0 < word) (subnormal : word < 2 ^ 52) :
    unpacked negative word = .finite (sign negative) word (-1074) positive := by
  rw [unpacked, dif_neg (Nat.ne_of_gt positive), if_pos subnormal]

theorem unpacked_normal (negative : Bool) (normal : 2 ^ 52 ≤ word) :
    unpacked negative word =
      .finite (sign negative) (word % 2 ^ 52 + 2 ^ 52) ((word / 2 ^ 52 : Nat) - 1075)
        (Nat.add_pos_right _ (by decide)) := by
  have nonzero : word ≠ 0 := by omega
  rw [unpacked, dif_neg nonzero, if_neg (Nat.not_lt.mpr normal)]

theorem unpackSign_word (negative : Bool) (finite : word < infinityWord) :
    Sign.ofBitVec (@unpackSign Format.binary64 (BitVec.ofNat 64 (bits negative word))) =
      sign negative := by
  have value := unpackSign_bits (BitVec.ofNat 64 (bits negative word))
  rw [toNat_bits negative finite] at value
  rw [infinityWord_def] at finite
  have bit : bits negative word / 2 ^ 63 % 2 = if negative then 1 else 0 := by
    unfold bits
    split <;> omega
  rw [bit] at value
  cases negative with
  | false => simp [Sign.ofBitVec, sign, BitVec.toNat_eq, value]
  | true => simp [Sign.ofBitVec, sign, BitVec.toNat_eq, value]

theorem implicit_append (mantissa : BitVec 52) :
    (1#1 ++ mantissa).toNat = mantissa.toNat + 2 ^ 52 := by
  rw [BitVec.toNat_append, ← Nat.shiftLeft_add_eq_or_of_lt mantissa.isLt, Nat.shiftLeft_eq,
    Nat.add_comm]
  rfl

theorem unpackMantissa_word (negative : Bool) (finite : word < infinityWord) :
    (@unpackMantissa Format.binary64 (BitVec.ofNat 64 (bits negative word))).toNat =
      word % 2 ^ 52 := by
  rw [unpackMantissa_bits, toNat_bits negative finite]
  unfold bits
  split <;> omega

theorem unpackExponent_word (negative : Bool) (finite : word < infinityWord) :
    (@unpackExponent Format.binary64 (BitVec.ofNat 64 (bits negative word))).toNat =
      word / 2 ^ 52 := by
  rw [unpackExponent_bits, toNat_bits negative finite]
  rw [infinityWord_def] at finite
  unfold bits
  split <;> omega

theorem unpack_of_fields {b : BitVec 64} (finite : word < infinityWord)
    (signed : Sign.ofBitVec (@unpackSign Format.binary64 b) = sign negative)
    (exponent : (@unpackExponent Format.binary64 b).toNat = word / 2 ^ 52)
    (mantissa : (@unpackMantissa Format.binary64 b).toNat = word % 2 ^ 52) :
    UnpackedFloat.unpack Format.binary64 b = unpacked negative word := by
  have notLast : @unpackExponent Format.binary64 b ≠ -1#_ := by
    intro last
    rw [last] at exponent
    change 2047 = word / 2 ^ 52 at exponent
    rw [infinityWord_def] at finite
    omega
  have appended := implicit_append (@unpackMantissa Format.binary64 b)
  unfold UnpackedFloat.unpack
  simp only [notLast, if_false, signed]
  by_cases subnormal : word < 2 ^ 52
  · have first : @unpackExponent Format.binary64 b = 0#_ :=
      BitVec.eq_of_toNat_eq (exponent.trans (Nat.div_eq_of_lt subnormal))
    rw [Nat.mod_eq_of_lt subnormal] at mantissa
    rw [if_pos first]
    by_cases zero : word = 0
    · have empty : @unpackMantissa Format.binary64 b = 0#_ :=
        BitVec.eq_of_toNat_eq (mantissa.trans zero)
      rw [dif_pos empty, unpacked, dif_pos zero]
    · have nonempty : @unpackMantissa Format.binary64 b ≠ 0#_ := by
        intro empty
        rw [empty] at mantissa
        exact zero mantissa.symm
      rw [dif_neg nonempty, unpacked_subnormal negative (Nat.pos_of_ne_zero zero) subnormal]
      simp only [mantissa, first]
      rfl
  · have notFirst : @unpackExponent Format.binary64 b ≠ 0#_ := by
      intro first
      rw [first] at exponent
      change 0 = word / 2 ^ 52 at exponent
      omega
    rw [mantissa] at appended
    rw [if_neg notFirst, unpacked_normal negative (Nat.le_of_not_lt subnormal)]
    simp only [appended, exponent]
    rfl

theorem unpack_bits (finite : word < infinityWord) :
    UnpackedFloat.unpack Format.binary64 (BitVec.ofNat 64 (bits negative word)) =
      unpacked negative word :=
  unpack_of_fields finite (unpackSign_word negative finite) (unpackExponent_word negative finite)
    (unpackMantissa_word negative finite)

theorem toNat_packComponents (sign : Sign) (exponent : BitVec 11) (mantissa : BitVec 52) :
    (packComponents Format.binary64 sign exponent mantissa).toNat =
      sign.toBitVec.toNat * 2 ^ 63 + exponent.toNat * 2 ^ 52 + mantissa.toNat := by
  unfold packComponents
  rw [BitVec.toNat_append, ← Nat.shiftLeft_add_eq_or_of_lt mantissa.isLt, Nat.shiftLeft_eq,
    BitVec.toNat_append, ← Nat.shiftLeft_add_eq_or_of_lt exponent.isLt, Nat.shiftLeft_eq]
  omega

theorem toNat_sign (negative : Bool) :
    (sign negative).toBitVec.toNat * 2 ^ 63 = if negative then 2 ^ 63 else 0 := by
  cases negative <;> rfl

theorem log2_mantissa (word : Nat) : (word % 2 ^ 52 + 2 ^ 52).log2 = 52 := by
  rw [Nat.log2_eq_iff (by omega)]
  omega

theorem pack_subnormal {mantissa : Nat} (positive : 0 < mantissa) (small : mantissa < 2 ^ 52) :
    UnpackedFloat.pack Format.binary64 (.finite (sign negative) mantissa (-1074) positive) =
      packComponents Format.binary64 (sign negative) 0#11 (BitVec.ofNat 52 mantissa) := by
  have log : mantissa.log2 < 52 := (Nat.log2_lt (Nat.ne_of_gt positive)).mpr small
  simp only [UnpackedFloat.pack]
  split
  · rename_i overflow
    exact absurd overflow (by decide)
  · split
    · rename_i normal
      change mantissa.log2 + 1 = 53 at normal
      omega
    · rfl

theorem pack_normal {mantissa binade : Nat} (positive : 0 < mantissa) (log : mantissa.log2 = 52)
    (finite : binade < 2047) :
    UnpackedFloat.pack Format.binary64 (.finite (sign negative) mantissa (binade - 1075) positive) =
      packComponents Format.binary64 (sign negative) (BitVec.ofNat 11 binade)
        (BitVec.ofNat 52 mantissa) := by
  have biased : ((binade : Int) - 1075 + Format.binary64.exponentBias +
      Format.binary64.mantissaBitsWithoutImplicit).toNat = binade := by
    change ((binade : Int) - 1075 + 1023 + 52).toNat = binade
    omega
  simp only [UnpackedFloat.pack, biased]
  split
  · rename_i overflow
    change 2048 ≤ binade + 1 at overflow
    omega
  · split
    · rfl
    · rename_i subnormal
      exact absurd (congrArg (· + 1) log) subnormal

theorem pack_unpacked (negative : Bool) (finite : word < infinityWord) :
    UnpackedFloat.pack Format.binary64 (unpacked negative word) =
      BitVec.ofNat 64 (bits negative word) := by
  apply BitVec.eq_of_toNat_eq
  rw [toNat_bits negative finite]
  rw [infinityWord_def] at finite
  unfold unpacked bits
  rw [← toNat_sign]
  by_cases zero : word = 0
  · subst zero
    rw [dif_pos rfl]
    refine (toNat_packComponents (sign negative) 0#11 0#52).trans ?_
    simp
  · rw [dif_neg zero]
    by_cases subnormal : word < 2 ^ 52
    · have field : word % 2 ^ 52 = word := Nat.mod_eq_of_lt subnormal
      rw [if_pos subnormal, pack_subnormal _ subnormal, toNat_packComponents, BitVec.toNat_ofNat,
        BitVec.toNat_ofNat, field]
      omega
    · rw [if_neg subnormal, pack_normal _ (log2_mantissa word) (by omega), toNat_packComponents,
        BitVec.toNat_ofNat, BitVec.toNat_ofNat]
      omega

theorem float_ext {x y : Float} (same : x.toBits = y.toBits) : x = y := by
  obtain ⟨⟨left, _⟩⟩ := x
  obtain ⟨⟨right, _⟩⟩ := y
  obtain rfl : left = right := same
  rfl

theorem toBits_ofWord (negative : Bool) (finite : word < infinityWord) :
    (ofWord negative word).toBits = UInt64.ofNat (bits negative word) := by
  have packed := pack_unpacked negative finite
  rw [← unpack_bits finite] at packed
  exact congrArg UInt64.ofBitVec packed

theorem toNat_toBits_ofWord (finite : word < infinityWord) :
    (ofWord negative word).toBits.toNat = bits negative word := by
  have value := toNat_bits negative finite
  rw [toBits_ofWord negative finite, UInt64.toNat_ofNat']
  rwa [BitVec.toNat_ofNat] at value

theorem unpack_ofWord (finite : word < infinityWord) :
    (ofWord negative word).toModel.unpack = unpacked negative word := by
  have same := congrArg (fun pattern => UnpackedFloat.unpack Format.binary64 pattern.toBitVec)
    (toBits_ofWord negative finite)
  exact same.trans (unpack_bits finite)

theorem ofModel_pack (finite : word < infinityWord) :
    Float.ofModel (Float.Model.pack (unpacked negative word)) = ofWord negative word := by
  apply float_ext
  rw [toBits_ofWord negative finite]
  exact congrArg UInt64.ofBitVec (pack_unpacked negative finite)

@[simp] theorem word_ofWord (finite : word < infinityWord) :
    Binary64.word (ofWord negative word) = word := by
  rw [word_def, toNat_toBits_ofWord finite]
  rw [infinityWord_def] at finite
  unfold bits
  split <;> omega

@[simp] theorem isNegative_ofWord (finite : word < infinityWord) :
    isNegative (ofWord negative word) = negative := by
  rw [isNegative_def, toNat_toBits_ofWord finite]
  rw [infinityWord_def] at finite
  unfold bits
  cases negative with
  | false =>
      simp
      omega
  | true => simp

theorem ofWord_word {x : Float} (finite : isFinite x = true) :
    ofWord (isNegative x) (Binary64.word x) = x := by
  have bound : Binary64.word x < infinityWord := of_decide_eq_true finite
  apply float_ext
  rw [toBits_ofWord _ bound]
  apply UInt64.toNat.inj
  have range := x.toBits.toNat_lt
  have value : bits (isNegative x) (Binary64.word x) = x.toBits.toNat := by
    rw [bits, isNegative_def, word_def]
    split
    · simp_all
      omega
    · simp_all
  rw [value, UInt64.ofNat_toNat]

theorem isFinite_ofWord (finite : word < infinityWord) :
    isFinite (ofWord negative word) = true := by
  simp [isFinite, word_ofWord finite, finite]

end ComplexCalculator.Binary64
