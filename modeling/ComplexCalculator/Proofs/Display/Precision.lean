import ComplexCalculator.Proofs.Decimal.HalfEven
import ComplexCalculator.Proofs.Display.Overflow

namespace ComplexCalculator

open Binary64 (word infinityWord isNegative magnitude value)

namespace Decimal

/-- What a numeral stands for, exactly. -/
def Numeral.value? : Numeral → Option ℚ
  | finite negative digits exponent => some (applySign negative (digits * 10 ^ exponent))
  | infinity _ => none
  | undefined => none

/-- The significant digits of a text: from the first digit other than zero, without a power of
ten. -/
def shownDigits (text : List Char) : List Char :=
  ((text.takeWhile (· != 'e')).filter Char.isDigit).dropWhile (· == '0')

/-- Positional notation: digits, perhaps with a point, under a sign. -/
def IsPositional (text : List Char) : Prop :=
  ∃ negative mantissa, IsSpelled mantissa ∧ text = leadingSign negative ++ mantissa

/-- The integer part of `q` under its sign, and `places` decimals. -/
def IsFixed (q : ℚ) (places : ℤ) (text : List Char) : Prop :=
  ∃ decimals, AllDigits decimals ∧ (decimals.length : ℤ) = places ∧
    text = leadingSign (decide (q < 0)) ++ (Nat.toDigits 10 ⌊|q|⌋₊ ++ point decimals)

/-- A digit other than zero under the sign of `q`, `places` decimals, and the exponent, whose sign
is always written. -/
def IsScientific (q : ℚ) (places exponent : ℤ) (text : List Char) : Prop :=
  ∃ first decimals, first ≠ '0' ∧ AllDigits (first :: decimals) ∧
    (decimals.length : ℤ) = places ∧
    text = leadingSign (decide (q < 0)) ++
      (first :: point decimals ++
        'e' :: (if exponent < 0 then '-' else '+') :: Nat.toDigits 10 exponent.natAbs)

/-- The text shows `q` with `count` significant digits. The numbers of decimals are differences of
integers, so none of them is cut off at zero. -/
structure Shows (count : ℕ) (q : ℚ) (text : List Char) : Prop where
  denotes : (Numeral.read? text).bind Numeral.value? = some q
  digits : (shownDigits text).length = count
  positional_iff : IsPositional text ↔ -6 ≤ Int.log 10 |q| ∧ Int.log 10 |q| < count
  fixed : -6 ≤ Int.log 10 |q| ∧ Int.log 10 |q| < count →
    IsFixed q (count - 1 - Int.log 10 |q|) text
  scientific : ¬ (-6 ≤ Int.log 10 |q| ∧ Int.log 10 |q| < count) →
    IsScientific q (count - 1) (Int.log 10 |q|) text

section Texts

variable {text digits : List Char}

theorem AllDigits.ne_mark (all : AllDigits digits) : ∀ c ∈ digits, c ≠ 'e' := by
  rintro c member rfl
  exact absurd (all 'e' member) (by decide)

theorem filter_point (all : AllDigits digits) : (point digits).filter Char.isDigit = digits := by
  cases digits with
  | nil => rfl
  | cons digit rest =>
      rw [point, List.filter_cons_of_neg (by decide)]
      exact List.filter_eq_self.mpr all

theorem ne_mark_of_mem_point (all : AllDigits digits) : ∀ c ∈ point digits, c ≠ 'e' := by
  cases digits with
  | nil => nofun
  | cons digit rest =>
      intro c member
      rcases List.mem_cons.mp member with rfl | member
      · decide
      · exact all.ne_mark c member

theorem IsSpelled.ne_mark (spelled : IsSpelled text) : ∀ c ∈ text, c ≠ 'e' := by
  obtain ⟨whole, decimals, -, wholeDigits, decimalDigits, rfl⟩ := spelled
  intro c member
  rcases List.mem_append.mp member with member | member
  · exact wholeDigits.ne_mark c member
  · exact ne_mark_of_mem_point decimalDigits c member

theorem ne_mark_of_mem_leadingSign {negative : Bool} : ∀ c ∈ leadingSign negative, c ≠ 'e' := by
  cases negative with
  | false => nofun
  | true =>
      intro c member
      obtain rfl := List.mem_singleton.mp member
      decide

theorem IsPositional.no_mark (positional : IsPositional text) : 'e' ∉ text := by
  obtain ⟨negative, mantissa, spelled, rfl⟩ := positional
  intro member
  rcases List.mem_append.mp member with member | member
  · exact ne_mark_of_mem_leadingSign 'e' member rfl
  · exact spelled.ne_mark 'e' member rfl

variable (literal : Literal)

theorem takeWhile_mark (negative : Bool) :
    (leadingSign negative ++ literal.text).takeWhile (· != 'e') =
      leadingSign negative ++ literal.mantissa := by
  have kept : ∀ c ∈ leadingSign negative ++ literal.mantissa, (c != 'e') = true := by
    intro c member
    rw [bne_iff_ne]
    rcases List.mem_append.mp member with member | member
    · exact ne_mark_of_mem_leadingSign c member
    · exact literal.isSpelled_mantissa.ne_mark c member
  have stop : literal.suffix.takeWhile (· != 'e') = [] := by
    unfold Literal.suffix
    split
    · rfl
    · exact List.takeWhile_cons_of_neg (by decide)
  rw [Literal.text, ← List.append_assoc, List.takeWhile_append_of_pos kept, stop, List.append_nil]

theorem shownDigits_literal (negative : Bool) :
    shownDigits (leadingSign negative ++ literal.text) =
      (literal.whole ++ literal.decimals).dropWhile (· == '0') := by
  have sign : (leadingSign negative).filter Char.isDigit = [] := by cases negative <;> decide
  rw [shownDigits, takeWhile_mark, Literal.mantissa, List.filter_append, List.filter_append, sign,
    List.nil_append, List.filter_eq_self.mpr literal.whole_digits,
    filter_point literal.decimals_digits]

end Texts

namespace Scientific

variable {number : Scientific} {places : ℕ} (normal : number.Normal) (negative : Bool)

theorem value?_literal (number : Scientific) :
    (Numeral.read? (leadingSign negative ++
        (number.literal (number.decimals + 1)).text)).bind Numeral.value? =
      some (applySign negative number.value) := by
  rw [Literal.read?_signed, Option.bind_some, Numeral.value?, digits_literal,
    exponent_literal rfl, value]

theorem literal_fixed (least : -6 ≤ number.exponent)
    (fixed : number.exponent = number.decimals - places) :
    number.literal (number.decimals + 1) = placedLiteral number.digits places := by
  have inside : ¬ (number.exponent < -6 ∨
      ((number.decimals + 1 : ℕ) : ℤ) ≤ number.exponent) := by omega
  have same : (((number.decimals + 1 : ℕ) : ℤ) - 1 - number.exponent).toNat = places := by omega
  rw [literal, if_neg inside, same]

theorem literal_scientific
    (outside : ¬ (-6 ≤ number.exponent ∧ number.exponent < (number.decimals + 1 : ℕ))) :
    number.literal (number.decimals + 1) = scientificLiteral number := by
  rw [literal, if_pos (by omega)]

theorem floor_value (fixed : number.exponent = number.decimals - places) :
    ⌊number.value⌋₊ = number.digits / 10 ^ places := by
  have place : number.exponent - number.decimals = -(places : ℤ) := by omega
  rw [value, place, zpow_neg, zpow_natCast, ← div_eq_mul_inv, ← Nat.floor_div_eq_div (K := ℚ)]
  push_cast
  rfl

theorem isPositional_literal (least : -6 ≤ number.exponent)
    (fixed : number.exponent = number.decimals - places) :
    IsPositional (leadingSign negative ++ (number.literal (number.decimals + 1)).text) := by
  rw [literal_fixed least fixed, text_placedLiteral, ← mantissa_placedLiteral]
  exact ⟨negative, _, Literal.isSpelled_mantissa _, rfl⟩

namespace Normal

include normal

theorem length_shownDigits :
    (shownDigits (leadingSign negative ++
        (number.literal (number.decimals + 1)).text)).length = number.decimals + 1 := by
  obtain ⟨least, most⟩ := normal
  rw [← digits_literal number (number.decimals + 1)] at least most
  rw [shownDigits_literal]
  generalize number.literal (number.decimals + 1) = literal at *
  exact length_dropWhile_zeros (literal.whole_digits.append literal.decimals_digits) least most

theorem isFixed_literal (least : -6 ≤ number.exponent)
    (fixed : number.exponent = number.decimals - places) :
    IsFixed (applySign negative number.value) places
      (leadingSign negative ++ (number.literal (number.decimals + 1)).text) := by
  refine ⟨digitsOfWidth places number.digits, allDigits_digitsOfWidth _ _, ?_, ?_⟩
  · rw [length_digitsOfWidth]
  · rw [applySign_lt_zero negative normal.value_pos, abs_applySign negative normal.value_pos,
      floor_value fixed, literal_fixed least fixed, text_placedLiteral, ← mantissa_placedLiteral]
    rfl

/-- One digit stands before the point. -/
theorem toDigits_whole : ∃ first, first ≠ '0' ∧ first.isDigit = true ∧
    Nat.toDigits 10 (number.digits / 10 ^ number.decimals) = [first] := by
  obtain ⟨least, most⟩ := normal
  have positive : 0 < number.digits / 10 ^ number.decimals :=
    Nat.div_pos least (Numeral.pow_pos_ten _)
  have small : number.digits / 10 ^ number.decimals < 10 := by
    rw [Nat.div_lt_iff_lt_mul (Numeral.pow_pos_ten _)]
    rwa [Nat.pow_succ'] at most
  rw [Nat.toDigits_of_lt_base small]
  generalize number.digits / 10 ^ number.decimals = leading at *
  refine ⟨_, ?_, ?_, rfl⟩
  · interval_cases leading <;> decide
  · rw [Nat.isDigit_digitChar, decide_eq_true small]

theorem isScientific_literal
    (outside : ¬ (-6 ≤ number.exponent ∧ number.exponent < (number.decimals + 1 : ℕ))) :
    IsScientific (applySign negative number.value) number.decimals number.exponent
      (leadingSign negative ++ (number.literal (number.decimals + 1)).text) := by
  obtain ⟨first, nonzero, isDigit, whole⟩ := normal.toDigits_whole
  refine ⟨first, digitsOfWidth number.decimals number.digits, nonzero, ?_, ?_, ?_⟩
  · exact List.forall_mem_cons.mpr ⟨isDigit, allDigits_digitsOfWidth _ _⟩
  · rw [length_digitsOfWidth]
  · have mantissa : (scientificLiteral number).mantissa =
        first :: point (digitsOfWidth number.decimals number.digits) := by
      change Nat.toDigits 10 (number.digits / 10 ^ number.decimals) ++ _ = _
      rw [whole]
      rfl
    rw [applySign_lt_zero negative normal.value_pos, literal_scientific outside, Literal.text,
      mantissa, suffix_scientificLiteral]

theorem shows :
    Shows (number.decimals + 1) (applySign negative number.value)
      (leadingSign negative ++ (number.literal (number.decimals + 1)).text) := by
  have exponent : Int.log 10 |applySign negative number.value| = number.exponent := by
    rw [abs_applySign negative normal.value_pos, normal.log_value]
  have scientific := normal.isScientific_literal negative
  have fixed (inside : -6 ≤ number.exponent ∧ number.exponent < (number.decimals + 1 : ℕ)) :
      number.exponent = number.decimals - (number.decimals - number.exponent).toNat := by omega
  have last : ((number.decimals + 1 : ℕ) : ℤ) - 1 = number.decimals := by omega
  constructor
  · exact value?_literal negative number
  · exact normal.length_shownDigits negative
  · rw [exponent]
    constructor
    · intro positional
      by_contra outside
      obtain ⟨first, decimals, -, -, -, text⟩ := scientific outside
      exact positional.no_mark (by simp [text])
    · exact fun inside => isPositional_literal negative inside.1 (fixed inside)
  · rw [exponent, last]
    intro inside
    have places : (number.decimals : ℤ) - number.exponent =
        (number.decimals - number.exponent).toNat := by omega
    rw [places]
    exact normal.isFixed_literal negative inside.1 (fixed inside)
  · rw [exponent, last]
    exact scientific

end Normal
end Scientific

end Decimal

namespace Display

open Decimal

variable {x : Float} (finite : Binary64.isFinite x = true)

include finite

theorem toList_signed (text : List Char) :
    (signed x (String.ofList text)).toList = leadingSign (isNegative x) ++ text := by
  rw [signed_finite finite, withSign]
  cases isNegative x <;> simp [leadingSign]

omit finite in
theorem precision_real (digits : ℕ) (nonzero : word x ≠ 0) :
    precision digits ⟨x, 0⟩ = signed x (significant (word x) (significantDigits digits)) := by
  have zero : word (0 : Float) = 0 := by decide
  simp [precision, byParts, unlessZero, nonzero, zero, assemble, significantDigits]

/-- A double is shown as its exact value rounded once. The count that the form passes on is
positive, so one digit less is a difference of naturals, and by `Shows` so are the decimals. -/
theorem shows_significant (nonzero : word x ≠ 0) :
    (∀ count, 0 < count →
      Shows count (roundSignificant count (value x))
        (signed x (significant (word x) count)).toList) ∧
    ∀ digits, precision digits ⟨x, 0⟩ =
        signed x (significant (word x) (significantDigits digits)) ∧
      0 < significantDigits digits ∧ significantDigits digits ≤ maxSignificant := by
  constructor
  · intro count positive
    obtain ⟨decimals, rfl⟩ : ∃ decimals, count = decimals + 1 := ⟨count - 1, by omega⟩
    have shows := (normal_ofWord nonzero decimals).shows (isNegative x)
    rw [significant_eq positive (word_lt_infinityWord finite), toList_signed finite, value,
      roundSignificant_applySign, roundSignificant_magnitude nonzero]
    rwa [decimals_ofWord] at shows
  · intro digits
    exact ⟨precision_real digits nonzero, significantDigits_pos digits, Nat.min_le_right _ _⟩

omit finite in
/-- Rounded to six digits, 999999.7 is a million, whose exponent is beyond positional notation. -/
theorem shows_significant_carry :
    Binary64.isFinite (Float.ofBits 0x412e847f66666666) = true ∧
      word (Float.ofBits 0x412e847f66666666) ≠ 0 ∧ Shows 6 1000000 "1.00000e+6".toList := by
  have finite : Binary64.isFinite (Float.ofBits 0x412e847f66666666) = true := by decide
  have nonzero : word (Float.ofBits 0x412e847f66666666) ≠ 0 := by decide
  have shows := (shows_significant finite nonzero).1 6 (by decide)
  have text : (signed (Float.ofBits 0x412e847f66666666)
      (significant (word (Float.ofBits 0x412e847f66666666)) 6)).toList =
        "1.00000e+6".toList := by decide +kernel
  have read : Numeral.read? "1.00000e+6".toList = some (.finite false 100000 1) := by decide
  have denotes := shows.denotes
  rw [text, read] at denotes
  have million : roundSignificant 6 (value (Float.ofBits 0x412e847f66666666)) = 1000000 := by
    rw [← Option.some.inj denotes]
    norm_num [applySign]
  rw [text, million] at shows
  exact ⟨finite, nonzero, shows⟩

end Display

end ComplexCalculator
