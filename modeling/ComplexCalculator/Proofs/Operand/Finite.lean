import ComplexCalculator.Operand
import ComplexCalculator.Proofs.Binary64.Arithmetic
import ComplexCalculator.Proofs.Grammar.Trees

namespace ComplexCalculator

variable {ε α : Type}

/-- The error names numbers that can have caused it. -/
def ArithmeticError.Justified : ArithmeticError → Prop
  | .notFinite re im => Binary64.isFinite re = false ∨ Binary64.isFinite im = false
  | .division numerator denominator => numerator.isFinite = true ∧ denominator.isFinite = true

def Failure.Justified : Failure ArithmeticError → Prop
  | .malformed _ => True
  | .arithmetic error => error.Justified

inductive Sound (justified : ε → Prop) : Except ε Complex → Prop where
  | ok {value : Complex} (finite : value.isFinite = true) : Sound justified (.ok value)
  | error {error : ε} (cause : justified error) : Sound justified (.error error)

namespace Sound

variable {justified : ε → Prop}

theorem finite {value : Complex} (sound : Sound justified (.ok value)) :
    value.isFinite = true := by
  cases sound
  assumption

theorem cause {error : ε} (sound : Sound justified (.error error)) : justified error := by
  cases sound
  assumption

theorem bind {first : Except ε Complex} {next : Complex → Except ε Complex}
    (sound : Sound justified first)
    (following : ∀ value, value.isFinite = true → Sound justified (next value)) :
    Sound justified (first >>= next) := by
  cases sound with
  | ok finite => exact following _ finite
  | error cause => exact .error cause

theorem evaluated {result : Except ArithmeticError Complex}
    (sound : Sound ArithmeticError.Justified result) :
    Sound Failure.Justified (evaluated result) := by
  cases sound with
  | ok finite => exact .ok finite
  | error cause => exact .error cause

theorem foldlM {next : Complex → α → Except ε Complex} {items : List α}
    (following : ∀ item ∈ items, ∀ value, value.isFinite = true →
      Sound justified (next value item))
    {value : Complex} (finite : value.isFinite = true) :
    Sound justified (items.foldlM next value) := by
  induction items generalizing value with
  | nil => exact .ok finite
  | cons item items ih =>
      rw [List.foldlM_cons]
      refine (following item List.mem_cons_self value finite).bind ?_
      intro value finite
      exact ih (fun item member => following item (List.mem_cons_of_mem _ member)) finite

end Sound

namespace Complex

variable (left right z : Complex)

theorem checked_sound : Sound ArithmeticError.Justified (checked z) := by
  unfold checked
  split
  · exact .ok (by assumption)
  · rename_i infinite
    exact .error (Bool.and_eq_false_iff.mp (Bool.eq_false_of_not_eq_true infinite))

theorem quotient_sound {left right : Complex} (leftFinite : left.isFinite = true)
    (rightFinite : right.isFinite = true) :
    Sound ArithmeticError.Justified (quotient left right) := by
  unfold quotient
  dsimp only
  split
  · exact .ok (by assumption)
  · exact .error ⟨leftFinite, rightFinite⟩

theorem power_sound : Sound ArithmeticError.Justified (power left right) :=
  (checked_sound _).bind fun logarithm _ =>
    (checked_sound (right.mul logarithm)).bind fun _ _ => checked_sound _

theorem isFinite_negate {z : Complex} (finite : z.isFinite = true) :
    z.negate.isFinite = true := by
  obtain ⟨reFinite, imFinite⟩ := Bool.and_eq_true_iff.mp finite
  exact Bool.and_eq_true_iff.mpr
    ⟨Binary64.isFinite_neg reFinite, Binary64.isFinite_neg imFinite⟩

theorem eval_sound (tree : Grammar.Expr) :
    Sound ArithmeticError.Justified (tree.eval semantics) := by
  induction tree with
  | number numeral => exact checked_sound _
  | euler | imaginaryUnit | zero | one => exact .ok (by decide)
  | add left right ihLeft ihRight | sub left right ihLeft ihRight | mul left right ihLeft ihRight =>
      exact ihLeft.bind fun _ _ => ihRight.bind fun _ _ => checked_sound _
  | div left right ihLeft ihRight =>
      exact ihLeft.bind fun _ leftFinite =>
        ihRight.bind fun _ rightFinite => quotient_sound leftFinite rightFinite
  | pow base exponent ihBase ihExponent =>
      exact ihBase.bind fun base _ => ihExponent.bind fun exponent _ => power_sound base exponent
  | exp argument ih | ln argument ih => exact ih.bind fun _ _ => checked_sound _
  | neg argument ih => exact ih.bind fun _ finite => .ok (isFinite_negate finite)

/-- What is read is the value of a tree or the failure of one of its nodes. -/
theorem ofTokens_sound (tokens : List Token) : Sound Failure.Justified (ofTokens tokens) := by
  unfold ofTokens
  cases parsed : Grammar.parse semantics tokens with
  | ok value =>
      obtain ⟨tree, -, evaluates⟩ := Grammar.Expr.exists_tree parsed
      exact .ok (evaluates ▸ eval_sound tree).finite
  | error failure =>
      cases failure with
      | malformed error => exact .error trivial
      | arithmetic error =>
          obtain ⟨node, -, fails⟩ := Grammar.Expr.exists_completed parsed
          exact .error (fails.fails ▸ eval_sound node).cause

theorem ofText_sound (text : String) : Sound Failure.Justified (ofText text) := by
  unfold ofText
  exact ofTokens_sound _

end Complex

namespace Operand

/-- The operand is no value that is not finite. Reals and texts are looked at when they are
resolved. -/
def Admitted (operand : Operand) : Prop := ∀ z, operand = value z → z.isFinite = true

theorem resolve_sound {operand : Operand} (admitted : operand.Admitted) :
    Sound Failure.Justified operand.resolve := by
  cases operand with
  | real x => exact (Complex.checked_sound _).evaluated
  | value z => exact .ok (admitted z rfl)
  | text expression =>
      exact Complex.ofText_sound expression

end Operand

namespace Operation

theorem fold_sound {combine : Complex → Complex → Except ArithmeticError Complex}
    {neutral : Complex} {operands : List Operand}
    (combined : ∀ left right, left.isFinite = true → right.isFinite = true →
      Sound ArithmeticError.Justified (combine left right))
    (finite : neutral.isFinite = true) (admitted : ∀ operand ∈ operands, operand.Admitted) :
    Sound Failure.Justified (fold combine neutral operands) := by
  cases operands with
  | nil => exact .ok finite
  | cons first rest =>
      refine (Operand.resolve_sound (admitted first List.mem_cons_self)).bind ?_
      intro value finite
      refine Sound.foldlM ?_ finite
      intro operand member value finite
      refine (Operand.resolve_sound (admitted operand (List.mem_cons_of_mem _ member))).bind ?_
      intro other otherFinite
      exact (combined value other finite otherFinite).evaluated

theorem apply_sound (operation : Operation) {operands : List Operand}
    (admitted : ∀ operand ∈ operands, operand.Admitted) :
    Sound Failure.Justified (operation.apply operands) := by
  have zero : Complex.zero.isFinite = true := by decide
  have one : Complex.one.isFinite = true := by decide
  have product : Sound Failure.Justified (fold Complex.product Complex.one operands) :=
    fold_sound (fun _ _ _ _ => Complex.checked_sound _) one admitted
  cases operation with
  | sum => exact fold_sound (fun _ _ _ _ => Complex.checked_sound _) zero admitted
  | difference => exact fold_sound (fun _ _ _ _ => Complex.checked_sound _) zero admitted
  | product => exact product
  | quotient => exact fold_sound (fun _ _ => Complex.quotient_sound) one admitted
  | exp => exact product.bind fun _ _ => (Complex.checked_sound _).evaluated
  | ln => exact product.bind fun _ _ => (Complex.checked_sound _).evaluated

end Operation

namespace Operand

theorem admitted_value {z : Complex} (finite : z.isFinite = true) : (value z).Admitted := by
  intro z same
  cases same
  exact finite

theorem power_sound {base exponent : Operand} (baseAdmitted : base.Admitted)
    (exponentAdmitted : exponent.Admitted) :
    Sound Failure.Justified (base.power exponent) := by
  refine (Operation.apply_sound .ln (by simpa using baseAdmitted)).bind ?_
  intro logarithm finite
  refine Operation.apply_sound .exp ?_
  simpa using ⟨exponentAdmitted, admitted_value finite⟩

theorem withTerm_sound {first second : Operand} (firstAdmitted : first.Admitted)
    (secondAdmitted : second.Admitted) :
    Sound Failure.Justified (first.withTerm second) := by
  have resolved := resolve_sound secondAdmitted
  unfold withTerm
  refine (resolve_sound firstAdmitted).bind fun base _ => ?_
  cases second with
  | real x => exact (Complex.checked_sound _).evaluated
  | value z | text expression =>
      dsimp only
      refine resolved.bind fun term _ => ?_
      exact (Complex.checked_sound _).evaluated

end Operand

/-- The outcomes that can be had from finite numbers, reals, tokens and texts, by operations on
results of one another. -/
inductive Calculated : Except EvaluationError Complex → Prop where
  | given {z : Complex} (finite : z.isFinite = true) : Calculated (.ok z)
  | checked (z : Complex) : Calculated (evaluated z.checked)
  | tokens (tokens : List Token) : Calculated (Complex.ofTokens tokens)
  | resolve {operand : Operand} (values : ∀ z, operand = .value z → Calculated (.ok z)) :
      Calculated operand.resolve
  | apply (operation : Operation) {operands : List Operand}
      (values : ∀ z, .value z ∈ operands → Calculated (.ok z)) :
      Calculated (operation.apply operands)
  | power {base exponent : Operand}
      (values : ∀ z, .value z ∈ [base, exponent] → Calculated (.ok z)) :
      Calculated (base.power exponent)
  | withTerm {first second : Operand}
      (values : ∀ z, .value z ∈ [first, second] → Calculated (.ok z)) :
      Calculated (first.withTerm second)
  | negate {z : Complex} (value : Calculated (.ok z)) : Calculated (.ok z.negate)

theorem Calculated.sound {result : Except EvaluationError Complex}
    (calculated : Calculated result) : Sound Failure.Justified result := by
  have admitted {operands : List Operand}
      (finite : ∀ z, .value z ∈ operands → Sound Failure.Justified (.ok z)) :
      ∀ operand ∈ operands, operand.Admitted := by
    intro operand member z same
    exact (finite z (same ▸ member)).finite
  induction calculated with
  | given finite => exact .ok finite
  | checked z => exact (Complex.checked_sound z).evaluated
  | tokens tokens => exact Complex.ofTokens_sound tokens
  | resolve _ ih => exact Operand.resolve_sound fun z same => (ih z same).finite
  | apply operation _ ih => exact operation.apply_sound (admitted ih)
  | power _ ih =>
      exact Operand.power_sound (admitted ih _ (by simp)) (admitted ih _ (by simp))
  | withTerm _ ih =>
      exact Operand.withTerm_sound (admitted ih _ (by simp)) (admitted ih _ (by simp))
  | negate _ ih => exact Sound.ok (Complex.isFinite_negate ih.finite)

/-- Whatever is calculated from finite numbers, reals and texts: a value has two finite parts,
the error for a number names a part that is not finite, and the error for a quotient names two
finite numbers. -/
theorem calculated_finite {result : Except EvaluationError Complex}
    (calculated : Calculated result) :
    (∀ z, result = .ok z → Binary64.isFinite z.re = true ∧ Binary64.isFinite z.im = true) ∧
    (∀ re im, result = .error (.arithmetic (.notFinite re im)) →
      Binary64.isFinite re = false ∨ Binary64.isFinite im = false) ∧
    ∀ numerator denominator,
      result = .error (.arithmetic (.division numerator denominator)) →
      (Binary64.isFinite numerator.re = true ∧ Binary64.isFinite numerator.im = true) ∧
        Binary64.isFinite denominator.re = true ∧ Binary64.isFinite denominator.im = true := by
  have sound := calculated.sound
  refine ⟨?_, ?_, ?_⟩
  · rintro z rfl
    exact Bool.and_eq_true_iff.mp sound.finite
  · rintro re im rfl
    exact sound.cause
  · rintro numerator denominator rfl
    obtain ⟨finite, finite'⟩ := sound.cause
    exact ⟨Bool.and_eq_true_iff.mp finite, Bool.and_eq_true_iff.mp finite'⟩

/-- Dividing `2` by `-j` and the quotient by zero fails, and the error names the quotient. -/
theorem calculated_finite_quotient :
    let operands := [.text "2", .value Complex.imaginaryUnit.negate, .real 0]
    let numerator : Complex := ⟨Binary64.ofWord true 0, 2⟩
    Calculated (Operation.quotient.apply operands) ∧
      Operation.quotient.apply operands =
        .error (.arithmetic (.division numerator Complex.zero)) ∧
      (Binary64.isFinite numerator.re = true ∧ Binary64.isFinite numerator.im = true) ∧
      Binary64.isFinite Complex.zero.re = true ∧ Binary64.isFinite Complex.zero.im = true := by
  intro operands numerator
  have unit : Calculated (.ok Complex.imaginaryUnit) := .tokens [.imaginaryUnit]
  have calculated : Calculated (Operation.quotient.apply operands) := by
    refine .apply .quotient ?_
    intro z member
    obtain rfl : z = Complex.imaginaryUnit.negate := by simpa [operands] using member
    exact .negate unit
  have failed : Operation.quotient.apply operands =
      .error (.arithmetic (.division numerator Complex.zero)) := by decide +kernel
  obtain ⟨-, -, divided⟩ := calculated_finite calculated
  exact ⟨calculated, failed, divided _ _ failed⟩

end ComplexCalculator
