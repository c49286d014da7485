import ComplexCalculator.Proofs.Binary64.Arithmetic
import ComplexCalculator.Proofs.Elementary
import ComplexCalculator.Proofs.Grammar.Terms

namespace ComplexCalculator.Display

open Binary64 Decimal Lexeme Grammar

variable {f : Elementary}

/-- One written part: its sign and the literal of its magnitude. -/
structure SignedLiteral where
  negative : Bool
  literal : Literal

namespace SignedLiteral

variable (part : SignedLiteral)

def text : String := String.ofList part.literal.text

def signedText : String := if part.negative then "-" ++ part.text else part.text

def signAndText : Bool × String := (part.negative, part.text)

def leading : List Token := if part.negative then [.minus] else []

end SignedLiteral

/-- A written part whose literal does not exceed the finite numbers. -/
structure Part extends SignedLiteral where
  finite : literal.word < infinityWord

namespace Part

variable (part : Part)

def value : Float := unsignedZero part.negative part.literal.word

def magnitude : Float := unsignedZero false part.literal.word

end Part

def assembled (re im : Option SignedLiteral) : String :=
  assemble (re.map SignedLiteral.signedText) (im.map SignedLiteral.signAndText)

def number (re im : Option Part) : Complex :=
  ⟨(re.map Part.value).getD 0, (im.map Part.value).getD 0⟩

section Values

variable {word : Nat} {negative : Bool}

theorem isFinite_unsignedZero (finite : word < infinityWord) :
    Binary64.isFinite (unsignedZero negative word) = true :=
  isFinite_ofWord finite

theorem isFinite_zero : Binary64.isFinite 0 = true := by decide

theorem checked_of_finite {re im : Float} (reFinite : Binary64.isFinite re = true)
    (imFinite : Binary64.isFinite im = true) : Complex.checked ⟨re, im⟩ = .ok ⟨re, im⟩ := by
  simp [Complex.checked, Complex.isFinite, reFinite, imFinite]

variable (part : Part)

theorem toFloat_literal :
    (Numeral.finite false part.literal.digits part.literal.exponent).toFloat = part.magnitude := by
  rw [Part.magnitude, unsignedZero, Bool.false_and, Literal.word, Numeral.toFloat]

theorem number_literal :
    f.semantics.number (.finite false part.literal.digits part.literal.exponent) =
      .ok ⟨part.magnitude, 0⟩ := by
  have ofReal : Complex.ofReal part.magnitude = .ok ⟨part.magnitude, 0⟩ :=
    checked_of_finite (isFinite_unsignedZero part.finite) isFinite_zero
  rw [← ofReal, ← toFloat_literal]
  rfl

theorem mul_unit :
    f.semantics.mul ⟨part.magnitude, 0⟩ f.semantics.imaginaryUnit =
      .ok ⟨0, part.magnitude⟩ := by
  have re : part.magnitude * 0 - 0 * 1 = 0 := by
    rw [Part.magnitude, unsignedZero_mul_zero part.finite, zero_mul_one, zero_sub_zero]
  have im : part.magnitude * 1 + 0 * 0 = part.magnitude := by
    rw [Part.magnitude, unsignedZero_mul_one part.finite, zero_mul_zero,
      unsignedZero_add_zero part.finite]
  change Complex.checked ⟨part.magnitude * 0 - 0 * 1, part.magnitude * 1 + 0 * 0⟩ = _
  rw [re, im]
  exact checked_of_finite isFinite_zero (isFinite_unsignedZero part.finite)

theorem isTerm_real : IsTerm f.semantics part.literal.tokens ⟨part.magnitude, 0⟩ :=
  isTerm_literal _ (number_literal part)

theorem isTerm_unit :
    IsTerm f.semantics (part.literal.tokens ++ [.imaginaryUnit]) ⟨0, part.magnitude⟩ :=
  isTerm_imaginary _ (number_literal part) (mul_unit part)

theorem finite_value : Binary64.isFinite part.value = true := isFinite_unsignedZero part.finite

theorem zero_sub_magnitude : 0 - part.magnitude = unsignedZero true part.literal.word :=
  zero_sub_unsignedZero part.finite

theorem sub_zero_real (isNegative : part.negative = true) :
    f.semantics.sub f.semantics.zero ⟨part.magnitude, 0⟩ = .ok ⟨part.value, 0⟩ := by
  change Complex.checked ⟨0 - part.magnitude, 0 - 0⟩ = _
  rw [zero_sub_magnitude, zero_sub_zero, ← isNegative]
  exact checked_of_finite (finite_value part) isFinite_zero

theorem sub_zero_imaginary (finite : word < infinityWord) :
    f.semantics.sub f.semantics.zero ⟨0, unsignedZero false word⟩ =
      .ok ⟨0, unsignedZero true word⟩ := by
  change Complex.checked ⟨0 - 0, 0 - unsignedZero false word⟩ = _
  rw [zero_sub_zero, zero_sub_unsignedZero finite]
  exact checked_of_finite isFinite_zero (isFinite_unsignedZero finite)

theorem sub_zero_unit (isNegative : part.negative = true) :
    f.semantics.sub f.semantics.zero ⟨0, part.magnitude⟩ = .ok ⟨0, part.value⟩ := by
  rw [Part.value, isNegative]
  exact sub_zero_imaginary part.finite

theorem value_of_positive (positive : part.negative = false) : part.magnitude = part.value := by
  rw [Part.magnitude, Part.value, positive]

theorem add_parts (re im : Part) (positive : im.negative = false) :
    f.semantics.add ⟨re.value, 0⟩ ⟨0, im.magnitude⟩ = .ok ⟨re.value, im.value⟩ := by
  have left : re.value + 0 = re.value := unsignedZero_add_zero re.finite
  have right : 0 + im.magnitude = im.magnitude := zero_add_unsignedZero im.finite
  change Complex.checked ⟨re.value + 0, 0 + im.magnitude⟩ = _
  rw [left, right, value_of_positive im positive]
  exact checked_of_finite (finite_value re) (finite_value im)

theorem sub_parts (re im : Part) (isNegative : im.negative = true) :
    f.semantics.sub ⟨re.value, 0⟩ ⟨0, im.magnitude⟩ = .ok ⟨re.value, im.value⟩ := by
  have left : re.value - 0 = re.value := unsignedZero_sub_zero re.finite
  change Complex.checked ⟨re.value - 0, 0 - im.magnitude⟩ = _
  rw [left, zero_sub_magnitude, ← isNegative]
  exact checked_of_finite (finite_value re) (finite_value im)

end Values

section Parsing

theorem SignedLiteral.leading_of_positive {part : SignedLiteral} (positive : part.negative = false) :
    part.leading = [] := by
  rw [leading, positive]
  rfl

theorem SignedLiteral.leading_of_negative {part : SignedLiteral}
    (isNegative : part.negative = true) : part.leading = [.minus] := by
  rw [leading, isNegative]
  rfl

variable {rest : List Token} (part : Part)

/-- A group that begins with a term under the sign of a part. -/
theorem read_group_signed {tokens : List Token} {unsigned value : Complex}
    (term : IsTerm f.semantics tokens unsigned)
    (kept : part.negative = false → unsigned = value)
    (negated : part.negative = true →
      f.semantics.sub f.semantics.zero unsigned = .ok value)
    (ends : EndsTerm rest) :
    read f.semantics .group (part.leading ++ tokens ++ rest) =
      (read f.semantics (.sumTail value) rest).andThen closeGroup := by
  cases negative : part.negative with
  | false =>
      rw [part.leading_of_positive negative, ← kept negative, List.nil_append]
      exact term.group ends
  | true =>
      rw [part.leading_of_negative negative, List.append_assoc, List.singleton_append]
      exact term.group_minus ends (negated negative)

theorem read_group_real (ends : EndsTerm rest) :
    read f.semantics .group (part.leading ++ part.literal.tokens ++ rest) =
      (read f.semantics (.sumTail ⟨part.value, 0⟩) rest).andThen closeGroup := by
  apply read_group_signed part (isTerm_real part) _ (sub_zero_real part) ends
  intro positive
  rw [value_of_positive part positive]

theorem read_group_unit (ends : EndsTerm rest) :
    read f.semantics .group
        (part.leading ++ (part.literal.tokens ++ [.imaginaryUnit]) ++ rest) =
      (read f.semantics (.sumTail ⟨0, part.value⟩) rest).andThen closeGroup := by
  apply read_group_signed part (isTerm_unit part) _ (sub_zero_unit part) ends
  intro positive
  rw [value_of_positive part positive]

theorem parse_of_group {tokens : List Token} {value : Complex}
    (group : read f.semantics .group (tokens ++ [.closing]) = .ok (value, [])) :
    f.ofTokens tokens = .ok value := by
  rw [Elementary.ofTokens, parse, group]

theorem ofTokens_real :
    f.ofTokens (part.leading ++ part.literal.tokens) = .ok ⟨part.value, 0⟩ := by
  apply parse_of_group
  rw [read_group_real part (.closing []), read_sumTail_closing]
  rfl

theorem ofTokens_unit :
    f.ofTokens (part.leading ++ (part.literal.tokens ++ [.imaginaryUnit])) =
      .ok ⟨0, part.value⟩ := by
  apply parse_of_group
  rw [read_group_unit part (.closing []), read_sumTail_closing]
  rfl

theorem ofTokens_both (re im : Part) :
    f.ofTokens (re.leading ++ re.literal.tokens ++ Token.ofSign im.negative ::
      (im.literal.tokens ++ [.imaginaryUnit])) = .ok ⟨re.value, im.value⟩ := by
  apply parse_of_group
  rw [List.append_assoc (re.leading ++ re.literal.tokens), List.cons_append]
  cases negative : im.negative with
  | false =>
      have plus : Token.ofSign false = .plus := rfl
      have sum := add_parts (f := f) re im negative
      rw [plus, read_group_real re (.plus _), (isTerm_unit im).sumTail_plus sum]
      rfl
  | true =>
      have minus : Token.ofSign true = .minus := rfl
      have difference := sub_parts (f := f) re im negative
      rw [minus, read_group_real re (.minus _),
        (isTerm_unit im).sumTail_minus (.closing []) difference, read_sumTail_closing]
      rfl

end Parsing

section Overflow

/-- The failure of a literal that exceeds the finite numbers. -/
def tooLarge : EvaluationError := .arithmetic (.notFinite (ofWord false infinityWord) 0)

theorem number_overflow {literal : Literal} (overflow : literal.word = infinityWord) :
    f.semantics.number (.finite false literal.digits literal.exponent) =
      .error (.notFinite (ofWord false infinityWord) 0) := by
  have value : (Numeral.finite false literal.digits literal.exponent).toFloat =
      ofWord false infinityWord := by
    rw [← overflow]
    rfl
  have infinite : Complex.isFinite ⟨ofWord false infinityWord, 0⟩ = false := by decide
  change Complex.checked ⟨(Numeral.finite false literal.digits literal.exponent).toFloat, 0⟩ = _
  rw [value, Complex.checked, infinite]
  rfl

variable {part : SignedLiteral} (overflow : part.literal.word = infinityWord)

include overflow

theorem ofTokens_overflow {rest : List Token} (ends : ∀ more, rest ≠ .euler :: more) :
    f.ofTokens (part.leading ++ part.literal.tokens ++ rest) = .error tooLarge := by
  have closed : ∀ more, rest ++ [Token.closing] ≠ .euler :: more := by
    cases rest with
    | nil => nofun
    | cons token rest =>
        intro more equal
        exact ends rest (by rw [(List.cons.inj equal).1])
  have term := failsTerm_literal part.literal (number_overflow (f := f) overflow) closed
  rw [← List.append_assoc] at term
  rw [Elementary.ofTokens, List.append_assoc]
  cases negative : part.negative with
  | false =>
      rw [part.leading_of_positive negative, List.nil_append]
      exact term.parse
  | true =>
      rw [part.leading_of_negative negative, List.singleton_append]
      exact term.parse_minus

theorem ofTokens_both_overflow (re : Part) :
    f.ofTokens (re.leading ++ re.literal.tokens ++
      Token.ofSign part.negative :: (part.literal.tokens ++ [.imaginaryUnit])) =
        .error tooLarge := by
  have unit : ∀ more, [Token.imaginaryUnit, Token.closing] ≠ .euler :: more := nofun
  have term := failsTerm_literal part.literal (number_overflow (f := f) overflow) unit
  have ends : EndsTerm (Token.ofSign part.negative ::
      (part.literal.tokens ++ [.imaginaryUnit, .closing])) := by
    cases part.negative with
    | false => exact .plus _
    | true => exact .minus _
  have group : read f.semantics .group (re.leading ++ re.literal.tokens ++
      Token.ofSign part.negative :: (part.literal.tokens ++ [.imaginaryUnit, .closing])) =
        .error tooLarge := by
    rw [read_group_real re ends, term.sumTail_sign ⟨re.value, 0⟩ part.negative]
    rfl
  have tokens : re.leading ++ re.literal.tokens ++
      Token.ofSign part.negative :: (part.literal.tokens ++ [.imaginaryUnit]) ++ [Token.closing] =
        re.leading ++ re.literal.tokens ++
          Token.ofSign part.negative :: (part.literal.tokens ++ [.imaginaryUnit, .closing]) := by
    simp
  rw [Elementary.ofTokens, parse, tokens, group]

end Overflow

section Lexing

variable {rest : List Char} (part : SignedLiteral)

theorem endsNumber_nil : EndsNumber [] := nofun

theorem endsNumber_unit (rest : List Char) : EndsNumber ('j' :: rest) := by
  intro c found
  cases found
  decide

theorem endsNumber_sign (negative : Bool) (rest : List Char) :
    EndsNumber ((if negative then '-' else '+') :: rest) := by
  intro c found
  cases found
  cases negative <;> decide

theorem literal_no_sign (literal : Literal) (rest : List Char) :
    ∀ d ∈ (literal.text ++ rest).head?, d ≠ '+' ∧ d ≠ '-' := by
  obtain ⟨digit, more, found⟩ := List.exists_cons_of_ne_nil literal.whole_ne_nil
  have isDigit := literal.whole_digits digit (by simp [found])
  intro d first
  have same : d = digit := by
    simpa [Literal.text, Literal.mantissa, found, eq_comm] using first
  subst same
  constructor <;> rintro rfl <;> contradiction

theorem tokens_signedText (ends : EndsNumber rest) :
    (scan wordPatterns (part.signedText.toList ++ rest)).map Token.ofLexeme =
      part.leading ++ part.literal.tokens ++ (scan wordPatterns rest).map Token.ofLexeme := by
  unfold SignedLiteral.signedText SignedLiteral.leading SignedLiteral.text
  cases part.negative with
  | false => simpa using part.literal.tokens_scan ends
  | true =>
      have sign := scan_sign true (literal_no_sign part.literal rest)
      simp only [if_true] at sign ⊢
      simp only [String.toList_append, String.toList_ofList, List.append_assoc]
      change (scan wordPatterns ('-' :: (part.literal.text ++ rest))).map Token.ofLexeme = _
      rw [sign, List.map_cons, part.literal.tokens_scan ends]
      rfl

theorem tokens_unit :
    (scan wordPatterns (part.literal.text ++ ['j'])).map Token.ofLexeme =
      part.literal.tokens ++ [.imaginaryUnit] := by
  rw [part.literal.tokens_scan (endsNumber_unit []), scan_unit, scan_nil]
  rfl

theorem written_unit : Written ['j'] := by
  apply Written.cons rfl
  nofun

theorem written_signedText : Written part.signedText.toList := by
  have literal : Written part.text.toList := by
    rw [SignedLiteral.text, String.toList_ofList]
    exact part.literal.written
  unfold SignedLiteral.signedText
  cases part.negative with
  | false => exact literal
  | true => 
      rw [if_pos rfl, String.toList_append]
      exact literal.cons rfl

theorem ofText_of_written {text : String} (written : Written text.toList) :
    f.ofText text =
      f.ofTokens ((scan wordPatterns text.toList).map Token.ofLexeme) := by
  rw [Elementary.ofText, Token.ofText, ofText_written written]

theorem ofText_real :
    f.ofText part.signedText = f.ofTokens (part.leading ++ part.literal.tokens) := by
  have tokens := tokens_signedText part endsNumber_nil
  rw [List.append_nil, scan_nil, List.map_nil, List.append_nil] at tokens
  rw [ofText_of_written (written_signedText part), tokens]

theorem ofText_unit :
    f.ofText (part.signedText ++ "j") =
      f.ofTokens (part.leading ++ (part.literal.tokens ++ [.imaginaryUnit])) := by
  have tokens := tokens_signedText part (endsNumber_unit [])
  rw [scan_unit, scan_nil, List.append_assoc] at tokens
  have written : Written (part.signedText ++ "j").toList := by
    rw [String.toList_append]
    exact (written_signedText part).append written_unit
  rw [ofText_of_written written, String.toList_append]
  exact congrArg f.ofTokens tokens

theorem ofText_both (re im : SignedLiteral) :
    f.ofText (re.signedText ++ (if im.negative then "-" else "+") ++ im.text ++ "j") =
      f.ofTokens (re.leading ++ re.literal.tokens ++ Token.ofSign im.negative ::
        (im.literal.tokens ++ [.imaginaryUnit])) := by
  have chars : (re.signedText ++ (if im.negative then "-" else "+") ++ im.text ++ "j").toList =
      re.signedText.toList ++ (if im.negative then '-' else '+') :: (im.literal.text ++ ['j']) := by
    have sign : (if im.negative then "-" else "+").toList =
        [if im.negative then '-' else '+'] := by
      cases im.negative <;> rfl
    simp [sign, SignedLiteral.text]
  have unit := im.literal.written.append written_unit
  have sign : isWritten (if im.negative then '-' else '+') = true := by
    cases im.negative <;> rfl
  have written := (written_signedText re).append (unit.cons sign)
  rw [← chars] at written
  rw [ofText_of_written written, chars, tokens_signedText re (endsNumber_sign _ _),
    scan_sign im.negative (literal_no_sign im.literal _), List.map_cons, Token.ofLexeme_sign,
    tokens_unit]

theorem assembled_unit : assembled none (some part) = part.signedText ++ "j" := by
  unfold assembled assemble SignedLiteral.signAndText SignedLiteral.signedText
  cases negative : part.negative <;> simp [negative]

end Lexing

theorem word_zero : (placedLiteral 0 0).word = 0 := by
  rw [word_placedLiteral, nearestWord_zero (by decide)]

/-- The part that stands for two omitted ones. -/
def zeroPart : Part where
  negative := false
  literal := placedLiteral 0 0
  finite := by rw [word_zero]; decide

theorem value_zeroPart : zeroPart.value = 0 := by
  rw [Part.value, zeroPart, word_zero, unsignedZero_zero]

theorem ofText_assembled (re im : Option Part) :
    f.ofText (assembled (re.map Part.toSignedLiteral) (im.map Part.toSignedLiteral)) =
      .ok (number re im) := by
  cases re with
  | none =>
      cases im with
      | none =>
          have zero : f.ofTokens (zeroPart.leading ++ zeroPart.literal.tokens) = .ok ⟨0, 0⟩ := by
            rw [ofTokens_real, value_zeroPart]
          exact (ofText_real zeroPart.toSignedLiteral).trans zero
      | some im =>
          rw [Option.map_none, Option.map_some, assembled_unit, ofText_unit, ofTokens_unit]
          rfl
  | some re =>
      cases im with
      | none => exact (ofText_real re.toSignedLiteral).trans (ofTokens_real re)
      | some im =>
          exact (ofText_both re.toSignedLiteral im.toSignedLiteral).trans (ofTokens_both re im)

/-- A real part that exceeds the finite numbers is refused before the imaginary part is read. -/
theorem ofText_assembled_real {re : SignedLiteral} (overflow : re.literal.word = infinityWord)
    (im : Option SignedLiteral) : f.ofText (assembled (some re) im) = .error tooLarge := by
  cases im with
  | none =>
      have tokens : f.ofTokens (re.leading ++ re.literal.tokens ++ []) = .error tooLarge :=
        ofTokens_overflow overflow nofun
      rw [List.append_nil] at tokens
      exact (ofText_real re).trans tokens
  | some im =>
      refine (ofText_both re im).trans (ofTokens_overflow overflow ?_)
      intro more equal
      cases negative : im.negative <;> simp [negative, Token.ofSign] at equal

theorem ofText_assembled_unit {im : SignedLiteral} (overflow : im.literal.word = infinityWord)
    (re : Option Part) :
    f.ofText (assembled (re.map Part.toSignedLiteral) (some im)) = .error tooLarge := by
  cases re with
  | none =>
      have tokens : f.ofTokens (im.leading ++ im.literal.tokens ++ [.imaginaryUnit]) =
          .error tooLarge := ofTokens_overflow overflow nofun
      rw [List.append_assoc] at tokens
      rw [Option.map_none, assembled_unit, ofText_unit, tokens]
  | some re => exact (ofText_both re.toSignedLiteral im).trans (ofTokens_both_overflow overflow re)

end ComplexCalculator.Display
