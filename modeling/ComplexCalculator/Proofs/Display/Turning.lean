import ComplexCalculator.Proofs.Binary64.Exceptional
import ComplexCalculator.Proofs.Display.Polar

namespace ComplexCalculator.Display

open Binary64 Decimal Lexeme Grammar
open Numeral (pow_pos_ten)

variable {f : Elementary} {x : Float} {z : Complex}

section Numbers

/-- A number is written as a part. The sign is left out with a number that shows as zero. -/
theorem exists_real (finite : Binary64.isFinite x = true) :
    ∃ part : Part, real x = part.signedText ∧
      part.literal.word = nearestWord (fixedDigits (word x) 12) (10 ^ 12) ∧
      ((word x ≠ 0 → isNegative x = false) → part.negative = false) := by
  have rereads := rereads_pretty (word_lt_infinityWord finite)
  have shown : prettyPart (word x) ≠ none → word x ≠ 0 := by
    intro shown zero
    rw [zero] at shown
    exact shown (by decide +kernel)
  unfold real
  rw [funext (signed_finite finite)]
  generalize prettyPart (word x) = text at rereads shown ⊢
  cases rereads with
  | omitted zero => exact ⟨zeroPart, rfl, word_zero.trans zero.symm, fun _ => rfl⟩
  | literal literal same bound =>
      rw [← same] at bound
      exact ⟨⟨⟨isNegative x, literal⟩, bound⟩, rfl, same, fun positive => positive (shown nofun)⟩

theorem fixedDigits_le_of_le_one {number places : Nat} (small : number ≤ word 1) :
    fixedDigits number places ≤ 10 ^ places := by
  have up := fixedDigits_le number places
  have units := Nat.mul_le_mul_left (10 ^ places) (units_le_units small)
  rw [units_word_one] at units
  have positive := unitsPerOne_pos
  by_contra larger
  have above : (10 ^ places + 1) * unitsPerOne ≤ fixedDigits number places * unitsPerOne :=
    Nat.mul_le_mul_right _ (Nat.lt_of_not_le larger)
  rw [Nat.add_mul] at above
  omega

theorem nearestWord_le_one {number places : Nat} (small : number ≤ word 1) :
    nearestWord (fixedDigits number places) (10 ^ places) ≤ word 1 := by
  apply nearestWord_le_of_le (pow_pos_ten places)
  rw [units_word_one]
  exact Nat.mul_le_mul_right _ (fixedDigits_le_of_le_one small)

theorem splitSign_signedText (part : SignedLiteral) :
    Numeral.splitSign part.signedText.toList = (part.negative, part.literal.text) := by
  unfold SignedLiteral.signedText SignedLiteral.text
  cases part.negative with
  | false =>
      obtain ⟨digit, more, found⟩ := List.exists_cons_of_ne_nil part.literal.whole_ne_nil
      have isDigit := part.literal.whole_digits digit (by simp [found])
      have front : part.literal.text =
          digit :: (more ++ point part.literal.decimals ++ part.literal.suffix) := by
        simp [Literal.text, Literal.mantissa, found]
      rw [if_neg Bool.false_ne_true, String.toList_ofList, front]
      exact Numeral.splitSign_digit _ isDigit
  | true =>
      rw [if_pos rfl, String.toList_append]
      change Numeral.splitSign ('-' :: (String.ofList part.literal.text).toList) = _
      rw [String.toList_ofList]
      rfl

end Numbers

section Modulus

variable (finite : Binary64.isFinite z.modulus = true)

include finite

/-- The squares of the parts are finite, and so are the parts. -/
theorem isFinite_of_modulus : z.isFinite = true := by
  obtain ⟨re, im⟩ := isFinite_of_add (isFinite_of_sqrt finite)
  simp [Complex.isFinite, isFinite_of_square re, isFinite_of_square im]

/-- The modulus is written without a sign. -/
theorem exists_modulus :
    ∃ part : Part, real z.modulus = part.signedText ∧ part.negative = false := by
  obtain ⟨part, text, -, positive⟩ := exists_real finite
  exact ⟨part, text, positive (isNegative_sqrt finite)⟩

end Modulus

section Angle

variable (bounded : ∀ y x, word y ≤ infinityWord → word x ≤ infinityWord →
  word (f.atan2 y x) ≤ word Complex.pi)
variable (modulusFinite : Binary64.isFinite z.modulus = true)

include bounded modulusFinite

theorem argument_le : word (f.argument z) ≤ word Complex.pi := by
  obtain ⟨reFinite, imFinite⟩ := parts_finite (isFinite_of_modulus modulusFinite)
  unfold Elementary.argument
  dsimp only
  generalize chosen : (if (z.modulus == 0) = true then 1 else z.modulus) = scale
  have scaleFinite : Binary64.isFinite scale = true := by
    rw [← chosen]
    split
    · exact isFinite_one
    · exact modulusFinite
  have nonzero : word scale ≠ 0 := by
    rw [← chosen]
    split
    · decide
    · rename_i positive
      exact fun zero => positive (beq_zero zero)
  apply bounded
  · split
    · decide
    · exact word_div_le_infinityWord imFinite scaleFinite nonzero
  · exact word_div_le_infinityWord reFinite scaleFinite nonzero

/-- The argument is at most half a turn. -/
theorem halfTurns_le : word (f.argument z / Complex.pi) ≤ word 1 :=
  word_div_le isFinite_pi (by decide) (argument_le bounded modulusFinite)

/-- The two numbers of the polar form, and what the text computes with them. -/
theorem exists_polarParts :
    ∃ modulus angle : Part, real z.modulus = String.ofList modulus.literal.text ∧
      real (f.argument z / Complex.pi) = angle.signedText ∧ angle.literal.word ≤ word 1 ∧
      f.ofText (real z.modulus ++ "e^(" ++ real (f.argument z / Complex.pi) ++ "jπ)") =
        evaluated (turn f angle.negative modulus.magnitude angle.magnitude) := by
  have half := halfTurns_le bounded modulusFinite
  obtain ⟨modulus, modulusText, positive⟩ := exists_modulus modulusFinite
  obtain ⟨angle, angleText, angleWord, -⟩ := exists_real (isFinite_of_le isFinite_one half)
  have unsigned : modulus.signedText = String.ofList modulus.literal.text := by
    rw [SignedLiteral.signedText, positive]
    rfl
  have small : angle.literal.word ≤ word 1 := by
    rw [angleWord]
    exact nearestWord_le_one half
  refine ⟨modulus, angle, modulusText.trans unsigned, angleText, small, ?_⟩
  have tokens := ofText_polarText (f := f) modulus.toSignedLiteral angle.toSignedLiteral
  rw [modulus.leading_of_positive positive, List.nil_append, ofTokens_polar] at tokens
  rw [modulusText, angleText]
  exact tokens

end Angle

section Value

/-- The value of the polar form is the modulus times the exponential of the angle, for the doubles
nearest to the decimals that are written, and it fails only where one of these operations does. The
arctangent of two numbers must not exceed π. -/
theorem ofText_polar (f : Elementary) (z : Complex)
    (bounded : ∀ y x, word y ≤ infinityWord → word x ≤ infinityWord →
      word (f.atan2 y x) ≤ word Complex.pi)
    (modulusFinite : Binary64.isFinite z.modulus = true)
    (turned : prettyPart (word z.im) ≠ none) :
    let angle := Numeral.splitSign (real (f.argument z / Complex.pi)).toList
    ∃ modulus halfTurns pi : Numeral,
      Numeral.read? (real z.modulus).toList = some modulus ∧
      Numeral.read? angle.2 = some halfTurns ∧
      Numeral.read? piDigits = some pi ∧ pi.toFloat = Complex.pi ∧
      f.ofText (f.polar z) = evaluated (turn f angle.1 modulus.toFloat halfTurns.toFloat) := by
  obtain ⟨modulus, angle, modulusText, angleText, -, read⟩ :=
    exists_polarParts bounded modulusFinite
  have pi : piLiteral.text = piDigits := mantissa_piLiteral
  rw [Elementary.polar, if_neg turned, read, modulusText, angleText, splitSign_signedText,
    String.toList_ofList, ← pi, ← toFloat_literal modulus, ← toFloat_literal angle]
  exact ⟨_, _, _, modulus.literal.read?_text, angle.literal.read?_text, piLiteral.read?_text,
    (toFloat_literal piPart).trans magnitude_piPart, rfl⟩

/-- Functions with the values that those of the platform have at a right angle, clockwise. -/
def clockwise : Elementary :=
  { Elementary.native with
    exp := fun _ => 1
    cos := fun _ => Float.ofBits 0x3c91a62633145c07
    sin := fun _ => -1
    atan2 := fun _ _ => Float.ofBits 0xbff921fb54442d18 }

/-- The angle of `-2j` is subtracted from zero. -/
theorem ofText_polar_clockwise :
    let z : Complex := ⟨0, -2⟩
    (∀ y x, word y ≤ infinityWord → word x ≤ infinityWord →
        word (clockwise.atan2 y x) ≤ word Complex.pi) ∧
      Binary64.isFinite z.modulus = true ∧ prettyPart (word z.im) ≠ none ∧
      clockwise.polar z = "2e^(-0.5jπ)" ∧
      clockwise.ofText "2e^(-0.5jπ)" = evaluated (turn clockwise true 2 0.5) ∧
      turn clockwise true 2 0.5 = .ok ⟨Float.ofBits 0x3ca1a62633145c07, -2⟩ := by
  intro z
  have bounded : ∀ y x, word y ≤ infinityWord → word x ≤ infinityWord →
      word (clockwise.atan2 y x) ≤ word Complex.pi := by
    have small : word (Float.ofBits 0xbff921fb54442d18) ≤ word Complex.pi := by decide
    exact fun _ _ _ _ => small
  have modulusFinite : Binary64.isFinite z.modulus = true := by decide +kernel
  have turned : prettyPart (word z.im) ≠ none := by decide +kernel
  have modulusText : real z.modulus = "2" := by decide +kernel
  have angleText : real (clockwise.argument z / Complex.pi) = "-0.5" := by decide +kernel
  have text : clockwise.polar z = "2e^(-0.5jπ)" := by
    rw [Elementary.polar, if_neg turned, modulusText, angleText]
    rfl
  obtain ⟨modulus, halfTurns, pi, two, half, -, -, value⟩ :=
    ofText_polar clockwise z bounded modulusFinite turned
  rw [modulusText] at two
  rw [angleText] at half
  have readTwo : Numeral.read? "2".toList = some (.finite false 2 0) := by decide
  have readHalf : Numeral.read? (Numeral.splitSign "-0.5".toList).2 =
      some (.finite false 5 (-1)) := by decide
  obtain rfl := Option.some.inj (two.symm.trans readTwo)
  obtain rfl := Option.some.inj (half.symm.trans readHalf)
  have sign : (Numeral.splitSign "-0.5".toList).1 = true := by decide
  have twoValue : (Numeral.finite false 2 0).toFloat = 2 := by decide +kernel
  have halfValue : (Numeral.finite false 5 (-1)).toFloat = 0.5 := by decide +kernel
  rw [text, angleText, sign, twoValue, halfValue] at value
  exact ⟨bounded, modulusFinite, turned, text, value, by decide +kernel⟩

end Value

end ComplexCalculator.Display
