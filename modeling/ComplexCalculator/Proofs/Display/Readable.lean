import ComplexCalculator.Proofs.Display.Overflow
import ComplexCalculator.Proofs.Display.Turning

namespace ComplexCalculator.Display

open Binary64 Decimal Lexeme Grammar
open Numeral (pow_pos_ten)

variable {f : Elementary} {x : Float} {z : Complex}

section Infinite

theorem real_of_infinite (infinite : Binary64.isFinite x = false) :
    real x = "inf" ∨ real x = "-inf" ∨ real x = "NaN" := by
  have above : ¬ word x < infinityWord := of_decide_eq_false infinite
  unfold real prettyPart fixedMagnitude Decimal.signed
  rw [if_neg above]
  by_cases number : word x = infinityWord
  · have prune : Decimal.prune "inf" = "inf" := by decide
    have le : decide (word x ≤ infinityWord) = true := by simp [number]
    rw [if_pos number, prune, le]
    cases isNegative x with
    | false => exact .inl rfl
    | true => exact .inr (.inl rfl)
  · have prune : Decimal.prune "NaN" = "NaN" := by decide
    have le : decide (word x ≤ infinityWord) = false := decide_eq_false (by omega)
    rw [if_neg number, prune, le, Bool.and_false]
    exact .inr (.inr rfl)

variable {rest : List Char}

theorem tokens_ofText (text : String) :
    Token.ofText text = (scan wordPatterns (prepare text.toList)).map Token.ofLexeme := by
  rw [Token.ofText, Lexeme.ofText, join_eq_scan]

theorem ofLexeme_n : Token.ofLexeme ['n'] = .unknown "n" := by decide

theorem scan_n (rest : List Char) :
    scan wordPatterns ('n' :: rest) = ['n'] :: scan wordPatterns rest :=
  scan_cons_of_next rfl

theorem scan_i (rest : List Char) :
    scan wordPatterns ('i' :: rest) = ['j'] :: scan wordPatterns rest :=
  scan_cons_of_next rfl

theorem tokens_infinity (rest : String) :
    ∃ more, Token.ofText ("inf" ++ rest) = .imaginaryUnit :: .unknown "n" :: more := by
  obtain ⟨more, prepared⟩ : ∃ more, prepare ("inf" ++ rest).toList = 'i' :: 'n' :: more := by
    rw [String.toList_append]
    exact ⟨_, rfl⟩
  rw [tokens_ofText, prepared, scan_i, scan_n, List.map_cons, List.map_cons, ofLexeme_n]
  exact ⟨_, rfl⟩

theorem tokens_negative_infinity (rest : String) :
    ∃ more, Token.ofText ("-inf" ++ rest) = .minus :: .imaginaryUnit :: .unknown "n" :: more := by
  obtain ⟨more, prepared⟩ : ∃ more, prepare ("-inf" ++ rest).toList = '-' :: 'i' :: 'n' :: more := by
    rw [String.toList_append]
    exact ⟨_, rfl⟩
  have sign : scan wordPatterns ('-' :: 'i' :: 'n' :: more) =
      ['-'] :: scan wordPatterns ('i' :: 'n' :: more) := scan_cons_of_next rfl
  rw [tokens_ofText, prepared, sign, scan_i, scan_n, List.map_cons, List.map_cons, List.map_cons,
    ofLexeme_n]
  exact ⟨_, rfl⟩

theorem tokens_undefined (rest : String) :
    ∃ more, Token.ofText ("NaN" ++ rest) = .unknown "n" :: more := by
  obtain ⟨more, prepared⟩ : ∃ more, prepare ("NaN" ++ rest).toList = 'n' :: more := by
    rw [String.toList_append]
    exact ⟨_, rfl⟩
  rw [tokens_ofText, prepared, scan_n, List.map_cons, ofLexeme_n]
  exact ⟨_, rfl⟩

/-- A text that begins with a number that is not finite is refused. -/
theorem ofText_infinite (f : Elementary) (infinite : Binary64.isFinite x = false)
    (rest : String) : ∃ failure, f.ofText (real x ++ rest) = .error failure := by
  unfold Elementary.ofText Elementary.ofTokens
  rcases real_of_infinite infinite with text | text | text
  · obtain ⟨more, tokens⟩ := tokens_infinity rest
    rw [text, tokens]
    exact ⟨_, (failsTerm_unknown "n" (more ++ [.closing])).unit.parse⟩
  · obtain ⟨more, tokens⟩ := tokens_negative_infinity rest
    rw [text, tokens]
    exact ⟨_, (failsTerm_unknown "n" (more ++ [.closing])).unit.parse_minus⟩
  · obtain ⟨more, tokens⟩ := tokens_undefined rest
    rw [text, tokens]
    exact ⟨_, (failsTerm_unknown "n" (more ++ [.closing])).parse⟩

end Infinite

section Renderings

/-- What the form writes stays within the finite numbers. -/
def InRange (settings : Settings) (z : Complex) : Prop :=
  match settings.form with
  | .pretty | .fixed => True
  | .precision => FitsPrecision settings.digits z.re ∧ FitsPrecision settings.digits z.im
  | .polar => prettyPart (word z.im) = none ∨ Binary64.isFinite z.modulus = true

theorem exists_ofText_polarText (regular : f.Regular)
    (modulusFinite : Binary64.isFinite z.modulus = true) :
    ∃ value, f.ofText (real z.modulus ++ "e^(" ++ real (f.argument z / Complex.pi) ++ "jπ)") =
      .ok value := by
  obtain ⟨modulus, angle, -, -, small, read⟩ := exists_polarParts regular.atan2_le modulusFinite
  obtain ⟨value, turned⟩ := exists_turn regular modulus angle small
  rw [read, turned]
  exact ⟨value, rfl⟩

theorem exists_ofText_polar (regular : f.Regular) (finite : z.isFinite = true)
    (inRange : prettyPart (word z.im) = none ∨ Binary64.isFinite z.modulus = true) :
    ∃ value, f.ofText (f.polar z) = .ok value := by
  unfold Elementary.polar
  split
  · exact ⟨_, ofText_pretty_elementary f finite⟩
  · rename_i turned
    exact exists_ofText_polarText regular (inRange.resolve_left turned)

theorem ofText_polar_infinite (f : Elementary) (turned : prettyPart (word z.im) ≠ none)
    (infinite : Binary64.isFinite z.modulus = false) :
    ∃ failure, f.ofText (f.polar z) = .error failure := by
  rw [Elementary.polar, if_neg turned, String.append_assoc, String.append_assoc]
  exact ofText_infinite f infinite _

/-- A rendering can be read back if what its form writes stays within the finite numbers, and is
refused otherwise. The polar form takes elementary functions whose values stay within their
ranges; the refusal does not depend on them. -/
theorem render_readable (f : Elementary) (settings : Settings) (z : Complex)
    (finite : z.isFinite = true) :
    (InRange settings z → (settings.form = .polar → f.Regular) →
        ∃ value, f.ofText (f.render settings z) = .ok value) ∧
      (¬ InRange settings z → ∃ failure, f.ofText (f.render settings z) = .error failure) := by
  obtain ⟨form, digits⟩ := settings
  cases form with
  | pretty =>
      have read := ofText_pretty_elementary f finite
      exact ⟨fun _ _ => ⟨_, read⟩, fun outside => absurd trivial outside⟩
  | fixed =>
      have read := ofText_fixed_elementary f digits finite
      exact ⟨fun _ _ => ⟨_, read⟩, fun outside => absurd trivial outside⟩
  | precision =>
      have readable := ofText_precision_iff f digits finite
      refine ⟨fun fits _ => readable.mpr fits, fun outside => ?_⟩
      change ∃ failure, f.ofText (precision digits z) = .error failure
      cases read : f.ofText (precision digits z) with
      | ok value => exact absurd (readable.mp ⟨value, read⟩) outside
      | error failure => exact ⟨failure, rfl⟩
  | polar =>
      refine ⟨fun inRange regular => exists_ofText_polar (regular rfl) finite inRange, ?_⟩
      intro outside
      obtain ⟨turned, infinite⟩ := not_or.mp outside
      exact ofText_polar_infinite f turned (eq_false_of_ne_true infinite)

/-- Functions with the values that the functions of the platform have at a right angle. -/
def rightAngle : Elementary :=
  { Elementary.native with
    exp := fun _ => 1
    cos := fun _ => Float.ofBits 0x3c91a62633145c07
    sin := fun _ => 1
    atan2 := fun _ _ => Float.ofBits 0x3ff921fb54442d18 }

theorem regular_rightAngle : rightAngle.Regular where
  exp_zero := rfl
  cos_le := by
    have small : word (Float.ofBits 0x3c91a62633145c07) ≤ word 1 := by decide
    exact fun _ _ => small
  sin_le _ _ := Nat.le_refl _
  atan2_le := by
    have small : word (Float.ofBits 0x3ff921fb54442d18) ≤ word Complex.pi := by decide
    exact fun _ _ _ _ => small

theorem render_readable_unit :
    Complex.isFinite ⟨0, 2⟩ = true ∧ rightAngle.render ⟨.polar, 6⟩ ⟨0, 2⟩ = "2e^(0.5jπ)" ∧
      ∃ value, rightAngle.ofText "2e^(0.5jπ)" = .ok value := by
  have finite : Complex.isFinite ⟨0, 2⟩ = true := by decide
  have text : rightAngle.render ⟨.polar, 6⟩ ⟨0, 2⟩ = "2e^(0.5jπ)" := by decide +kernel
  have inRange : InRange ⟨.polar, 6⟩ ⟨0, 2⟩ := .inr (by decide +kernel)
  have readable := (render_readable rightAngle ⟨.polar, 6⟩ ⟨0, 2⟩ finite).1 inRange
    fun _ => regular_rightAngle
  rw [text] at readable
  exact ⟨finite, text, readable⟩

/-- The greatest double. -/
def greatest : Float := ofWord false (infinityWord - 1)

/-- Neither the form with significant digits nor the polar form can always be read back: with one
digit the greatest double is written as `2e+308`, and the modulus of a number with such a part
overflows. -/
theorem render_unreadable :
    (¬ ∀ z : Complex, z.isFinite = true → ∃ value, Complex.ofText (precision 1 z) = .ok value) ∧
      ¬ ∀ z : Complex, z.isFinite = true → ∃ value, Complex.ofText (polar z) = .ok value := by
  constructor
  · intro always
    have finite : Complex.isFinite ⟨greatest, 0⟩ = true := by decide
    obtain ⟨fits, -⟩ := (ofText_precision_iff .native 1 finite).mp (always _ finite)
    exact absurd fits (by decide +kernel)
  · intro always
    obtain ⟨value, read⟩ := always ⟨greatest, 1⟩ (by decide)
    have turned : prettyPart (word 1) ≠ none := by decide +kernel
    have infinite : Binary64.isFinite (Complex.modulus ⟨greatest, 1⟩) = false := by
      decide +kernel
    obtain ⟨failure, refused⟩ :=
      ofText_polar_infinite (z := ⟨greatest, 1⟩) .native turned infinite
    rw [Elementary.polar_native, Elementary.ofText_native, read] at refused
    cases refused

end Renderings

end ComplexCalculator.Display
