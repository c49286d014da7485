import ComplexCalculator.Proofs.Binary64.Bounds
import ComplexCalculator.Proofs.Display.Rereading
import ComplexCalculator.Proofs.Grammar.Trees

/-!
Reading the polar form.

The polar form is a number, the exponential of an angle glued to it, and the angle is a signed
number of half turns with the imaginary unit and π glued to it. What such a text computes is
`turn`, over any elementary functions. Over functions whose values stay within their ranges it
always has a value: the exponential of an imaginary number does not exceed one, so its product with
the modulus stays finite. A modulus that is not finite is written as a word that no expression
begins with.
-/

namespace ComplexCalculator.Display

open Binary64 Decimal Lexeme Grammar
open Numeral (pow_pos_ten)

variable {f : Elementary}

section Lexing

/-- The number that stands for π. -/
def piLiteral : Literal := placedLiteral 3141592653589793 15

def polarText (modulus angle : SignedLiteral) : String :=
  modulus.signedText ++ "e^(" ++ angle.signedText ++ "jπ)"

/-- The tokens of the exponential that the modulus is glued to. -/
def rotation (angle : SignedLiteral) : List Token :=
  .exp :: .opening ::
    (angle.leading ++ (angle.literal.tokens ++ .imaginaryUnit :: piLiteral.tokens) ++ [.closing])

theorem mantissa_piLiteral : piLiteral.mantissa = piDigits := by decide +kernel

theorem tokens_piLiteral : piLiteral.tokens = [Token.ofLexeme piDigits] := by
  rw [← mantissa_piLiteral, Token.ofLexeme_spelled piLiteral.isSpelled_mantissa]
  rfl

theorem tokens_angle (angle : SignedLiteral) :
    (scan wordPatterns (angle.signedText.toList ++ ['j', 'π', ')'])).map Token.ofLexeme =
      angle.leading ++ (angle.literal.tokens ++ .imaginaryUnit :: piLiteral.tokens) ++
        [.closing] := by
  rw [tokens_signedText angle (endsNumber_unit _), scan_unit, scan_pi, scan_parenthesis (.inr rfl),
    scan_nil, List.map_cons, List.map_cons, List.map_singleton, tokens_piLiteral]
  simp only [List.append_assoc, List.cons_append, List.nil_append]
  rfl

theorem ofText_polarText (modulus angle : SignedLiteral) :
    f.ofText (polarText modulus angle) =
      f.ofTokens (modulus.leading ++ (modulus.literal.tokens ++ rotation angle)) := by
  have chars : (polarText modulus angle).toList = modulus.signedText.toList ++
      'e' :: '^' :: '(' :: (angle.signedText.toList ++ ['j', 'π', ')']) := by
    simp [polarText]
  have written : Written (polarText modulus angle).toList := by
    have ending : Written ['j', 'π', ')'] := by
      intro c member
      fin_cases member <;> decide
    rw [chars]
    apply (written_signedText modulus).append
    exact ((((written_signedText angle).append ending).cons rfl).cons rfl).cons rfl
  have ends : EndsNumber ('e' :: '^' :: '(' :: (angle.signedText.toList ++ ['j', 'π', ')'])) := by
    intro c found
    cases found
    decide
  rw [ofText_of_written written, chars, tokens_signedText modulus ends, scan_exponential,
    scan_parenthesis (.inl rfl), List.map_cons, List.map_cons, tokens_angle, List.append_assoc]
  rfl

end Lexing

section Values

variable {a c s ρ : Float}

theorem isFinite_one : Binary64.isFinite 1 = true := by decide

theorem isFinite_pi : Binary64.isFinite Complex.pi = true := by decide

theorem zero_mul_word (small : word a ≤ word 1) : word (0 * a) = 0 := by
  have le := word_mul_le_left isFinite_zero small
  have zero : word 0 = 0 := by decide
  omega

theorem word_piLiteral : piLiteral.word = word Complex.pi := by
  rw [piLiteral, word_placedLiteral]
  decide +kernel

def piPart : Part where
  negative := false
  literal := piLiteral
  finite := by
    rw [word_piLiteral]
    exact isFinite_iff.mp isFinite_pi

theorem magnitude_piPart : piPart.magnitude = Complex.pi := by
  have positive : isNegative Complex.pi = false := by decide
  conv_rhs => rw [← ofWord_word isFinite_pi, positive, ← word_piLiteral]
  rfl

theorem unit_mul_pi :
    Complex.product Complex.imaginaryUnit ⟨Complex.pi, 0⟩ = .ok ⟨0, Complex.pi⟩ := by
  have re : 0 * Complex.pi - 1 * 0 = 0 := by decide
  have im : 0 * 0 + 1 * Complex.pi = Complex.pi := by decide
  change Complex.checked ⟨0 * Complex.pi - 1 * 0, 0 * 0 + 1 * Complex.pi⟩ = _
  rw [re, im]
  exact checked_of_finite isFinite_zero isFinite_pi

theorem zero_mul_pi : 0 * Complex.pi = 0 := by decide

/-- The number of half turns times π. -/
theorem exists_angle (angle : Part) (small : angle.literal.word ≤ word 1) :
    ∃ turned < infinityWord, Complex.product ⟨angle.magnitude, 0⟩ ⟨0, Complex.pi⟩ =
      .ok ⟨0, unsignedZero false turned⟩ := by
  have magnitudeFinite : Binary64.isFinite angle.magnitude = true :=
    isFinite_unsignedZero angle.finite
  have product := mul_eq magnitudeFinite isFinite_pi
  have magnitudePositive : isNegative angle.magnitude = false := isNegative_ofWord angle.finite
  have piPositive : isNegative Complex.pi = false := by decide
  have magnitudeWord : word angle.magnitude = angle.literal.word := word_ofWord angle.finite
  have bound : nearestWord (units (word Complex.pi) * units angle.literal.word)
      (unitsPerOne * unitsPerOne) ≤ word Complex.pi := nearestWord_mul_le small
  rw [magnitudePositive, piPositive, magnitudeWord, Nat.mul_comm (units _)] at product
  generalize nearestWord (units (word Complex.pi) * units angle.literal.word)
    (unitsPerOne * unitsPerOne) = turned at product bound
  have finite : turned < infinityWord := Nat.lt_of_le_of_lt bound (isFinite_iff.mp isFinite_pi)
  have unsigned : ofWord (false != false) turned = unsignedZero false turned := rfl
  refine ⟨turned, finite, ?_⟩
  have re : angle.magnitude * 0 - 0 * Complex.pi = 0 := by
    rw [Part.magnitude, unsignedZero_mul_zero angle.finite, zero_mul_pi, zero_sub_zero]
  have im : angle.magnitude * Complex.pi + 0 * 0 = unsignedZero false turned := by
    rw [product, unsigned, zero_mul_zero, unsignedZero_add_zero finite]
  change Complex.checked ⟨angle.magnitude * 0 - 0 * Complex.pi,
    angle.magnitude * Complex.pi + 0 * 0⟩ = _
  rw [re, im]
  exact checked_of_finite isFinite_zero (isFinite_unsignedZero finite)

/-- The exponential of an imaginary number lies in the square around the unit circle. -/
theorem exists_exponential (regular : f.Regular) (finite : Binary64.isFinite a = true) :
    ∃ c s, f.exponential ⟨0, a⟩ = .ok ⟨c, s⟩ ∧ word c ≤ word 1 ∧ word s ≤ word 1 := by
  have cosFinite := isFinite_of_le isFinite_one (regular.cos_le a finite)
  have sinFinite := isFinite_of_le isFinite_one (regular.sin_le a finite)
  have cosLe : word (1 * f.cos a) ≤ word 1 :=
    Nat.le_trans (word_mul_le_right cosFinite (Nat.le_refl _)) (regular.cos_le a finite)
  have sinLe : word (1 * f.sin a) ≤ word 1 :=
    Nat.le_trans (word_mul_le_right sinFinite (Nat.le_refl _)) (regular.sin_le a finite)
  refine ⟨1 * f.cos a, 1 * f.sin a, ?_, cosLe, sinLe⟩
  change Complex.checked ⟨f.exp 0 * f.cos a, f.exp 0 * f.sin a⟩ = _
  rw [regular.exp_zero]
  exact checked_of_finite (isFinite_of_le isFinite_one cosLe) (isFinite_of_le isFinite_one sinLe)

theorem exists_rotated (finite : Binary64.isFinite ρ = true) (cosLe : word c ≤ word 1)
    (sinLe : word s ≤ word 1) : ∃ value, Complex.product ⟨ρ, 0⟩ ⟨c, s⟩ = .ok value := by
  have reFinite : Binary64.isFinite (ρ * c - 0 * s) = true :=
    isFinite_sub_zero (isFinite_of_le finite (word_mul_le_left finite cosLe)) (zero_mul_word sinLe)
  have imFinite : Binary64.isFinite (ρ * s + 0 * c) = true :=
    isFinite_add_zero (isFinite_of_le finite (word_mul_le_left finite sinLe)) (zero_mul_word cosLe)
  exact ⟨_, checked_of_finite reFinite imFinite⟩

end Values

section Turning

/-- So many times `jπ`. -/
def halfTurning (halfTurns : Float) : Except ArithmeticError Complex := do
  Complex.product ⟨halfTurns, 0⟩ (← Complex.product Complex.imaginaryUnit ⟨Complex.pi, 0⟩)

/-- The angle of so many half turns. A negative one is subtracted from zero. -/
def turning (negative : Bool) (halfTurns : Float) : Except ArithmeticError Complex :=
  if negative then do Complex.difference Complex.zero (← halfTurning halfTurns)
  else halfTurning halfTurns

/-- The modulus times the exponential of the angle. -/
def turn (f : Elementary) (negative : Bool) (modulus halfTurns : Float) :
    Except ArithmeticError Complex := do
  Complex.product ⟨modulus, 0⟩ (← f.exponential (← turning negative halfTurns))

theorem exists_turning (angle : Part) (small : angle.literal.word ≤ word 1) :
    ∃ a, turning angle.negative angle.magnitude = .ok ⟨0, a⟩ ∧ Binary64.isFinite a = true := by
  obtain ⟨turned, finite, product⟩ := exists_angle angle small
  have half : halfTurning angle.magnitude = .ok ⟨0, unsignedZero false turned⟩ := by
    simp only [halfTurning, unit_mul_pi, bind, Except.bind]
    exact product
  refine ⟨unsignedZero angle.negative turned, ?_, isFinite_unsignedZero finite⟩
  simp only [turning, half, bind, Except.bind]
  cases angle.negative with
  | false => rfl
  | true => exact sub_zero_imaginary (f := .native) finite

theorem exists_turn (regular : f.Regular) (modulus angle : Part)
    (small : angle.literal.word ≤ word 1) :
    ∃ value, turn f angle.negative modulus.magnitude angle.magnitude = .ok value := by
  obtain ⟨a, turned, finite⟩ := exists_turning angle small
  obtain ⟨c, s, exponential, cosLe, sinLe⟩ := exists_exponential regular finite
  have modulusFinite : Binary64.isFinite modulus.magnitude = true :=
    isFinite_unsignedZero modulus.finite
  obtain ⟨value, rotated⟩ := exists_rotated modulusFinite cosLe sinLe
  refine ⟨value, ?_⟩
  simp only [turn, turned, exponential, bind, Except.bind]
  exact rotated

end Turning

section Parsing

def literalTree (literal : Literal) : Expr :=
  .number (.finite false literal.digits literal.exponent)

def halfTurnsTree (halfTurns : Literal) : Expr :=
  .mul (literalTree halfTurns) (.mul .imaginaryUnit (literalTree piLiteral))

/-- The leading minus subtracts the angle from zero. -/
def angleTree (angle : SignedLiteral) : Expr :=
  if angle.negative then .sub .zero (halfTurnsTree angle.literal) else halfTurnsTree angle.literal

def polarTree (modulus : Literal) (angle : SignedLiteral) : Expr :=
  .mul (literalTree modulus) (.exp (angleTree angle))

theorem isTerm_halfTurns (halfTurns : Literal) :
    IsTerm Expr.builder (halfTurns.tokens ++ .imaginaryUnit :: piLiteral.tokens)
      (halfTurnsTree halfTurns) := by
  have pi : IsTerm Expr.builder piLiteral.tokens (literalTree piLiteral) :=
    isTerm_literal piLiteral rfl
  exact isTerm_glued halfTurns rfl (isTerm_unit_glued pi rfl) nofun rfl

theorem read_group_angle (angle : SignedLiteral) (rest : List Token) :
    read Expr.builder .group (angle.leading ++
      (angle.literal.tokens ++ .imaginaryUnit :: piLiteral.tokens) ++ .closing :: rest) =
        .ok (angleTree angle, rest) := by
  have term := isTerm_halfTurns angle.literal
  unfold angleTree
  cases negative : angle.negative with
  | false =>
      rw [angle.leading_of_positive negative, List.nil_append, term.group (.closing rest),
        read_sumTail_closing]
      rfl
  | true =>
      rw [angle.leading_of_negative negative, List.append_assoc, List.singleton_append,
        term.group_minus (.closing rest) rfl, read_sumTail_closing]
      rfl

theorem parse_polar (modulus : Literal) (angle : SignedLiteral) :
    Expr.parse (modulus.tokens ++ rotation angle) = .ok (polarTree modulus angle) := by
  have rotated : IsTerm Expr.builder (rotation angle) (.exp (angleTree angle)) :=
    isTerm_exp (fun rest _ => read_group_angle angle rest) rfl
  have term : IsTerm Expr.builder (modulus.tokens ++ rotation angle) (polarTree modulus angle) :=
    isTerm_glued modulus rfl rotated nofun rfl
  unfold Expr.parse Grammar.parse
  rw [term.group (.closing []), read_sumTail_closing]
  rfl

section Evaluation

variable (modulus angle : Part)

theorem eval_literalTree (part : Part) :
    (literalTree part.literal).eval f.semantics = .ok ⟨part.magnitude, 0⟩ :=
  number_literal part

theorem eval_piLiteral : (literalTree piLiteral).eval f.semantics = .ok ⟨Complex.pi, 0⟩ := by
  rw [← magnitude_piPart]
  exact eval_literalTree piPart

theorem eval_halfTurnsTree :
    (halfTurnsTree angle.literal).eval f.semantics = halfTurning angle.magnitude := by
  have unit : f.semantics.imaginaryUnit = Complex.imaginaryUnit := rfl
  have mul : f.semantics.mul = Complex.product := rfl
  simp only [halfTurnsTree, halfTurning, Expr.eval, eval_literalTree, eval_piLiteral, unit, mul,
    bind, Except.bind]

theorem eval_angleTree :
    (angleTree angle.toSignedLiteral).eval f.semantics =
      turning angle.negative angle.magnitude := by
  unfold angleTree turning
  cases angle.negative with
  | false => exact eval_halfTurnsTree angle
  | true =>
      rw [if_pos rfl, Expr.eval, eval_halfTurnsTree]
      rfl

theorem eval_polarTree :
    (polarTree modulus.literal angle.toSignedLiteral).eval f.semantics =
      turn f angle.negative modulus.magnitude angle.magnitude := by
  unfold polarTree turn
  rw [Expr.eval, Expr.eval, eval_literalTree, eval_angleTree]
  exact bind_assoc (turning angle.negative angle.magnitude) f.exponential
    (Complex.product ⟨modulus.magnitude, 0⟩)

end Evaluation

/-- A number with the exponential of an angle glued to it. -/
theorem ofTokens_polar (modulus angle : Part) :
    f.ofTokens (modulus.literal.tokens ++ rotation angle.toSignedLiteral) =
      evaluated (turn f angle.negative modulus.magnitude angle.magnitude) := by
  rw [Elementary.ofTokens, Expr.parse_of_tree (parse_polar _ _), eval_polarTree]
  rfl

end Parsing

end ComplexCalculator.Display
