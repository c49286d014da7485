import ComplexCalculator.Operand
import ComplexCalculator.Proofs.Grammar.Chains

namespace ComplexCalculator.Grammar

variable {V ε : Type} {semantics : Semantics V ε}

/-- Factors behind one another, each with its operator: `true` is a slash. -/
abbrev Factors (semantics : Semantics V ε) := List (Bool × Parsed semantics)

def operator (divides : Bool) : Token := if divides then .slash else .star

def Factors.tokens (factors : Factors semantics) : List Token :=
  factors.flatMap fun (divides, factor) => operator divides :: enclosed factor.tokens

/-- What a chain of factors behind a value computes, operations in the order of their failures.
The operator behind a divisor does not count. -/
def multiplyOut (value : V) : Factors semantics → Except ε V
  | [] => .ok value
  | (false, factor) :: rest => do semantics.mul value (← multiplyOut factor.value rest)
  | [(true, divisor)] => semantics.div value divisor.value
  | (true, divisor) :: (_, factor) :: rest => do
      let quotient ← semantics.div value divisor.value
      semantics.mul quotient (← multiplyOut factor.value rest)

/-- What may stand behind a factor: an operator of the chain, or the end of the group. -/
inductive EndsFactor : List Token → Prop where
  | operator (divides : Bool) (rest : List Token) : EndsFactor (operator divides :: rest)
  | closing (rest : List Token) : EndsFactor (.closing :: rest)

namespace EndsFactor

variable {rest : List Token} (ends : EndsFactor rest)

include ends

theorem atEnd : atEnd rest = true := by
  cases ends with
  | operator divides rest => cases divides <;> rfl
  | closing rest => rfl

theorem read_powerTail (value : V) :
    read semantics (.powerTail value) rest = .ok (value, rest) := by
  rw [read_eq_step]
  cases ends with
  | operator divides rest => cases divides <;> rfl
  | closing rest => rfl

end EndsFactor

theorem Factors.endsFactor (factors : Factors semantics) (rest : List Token) :
    EndsFactor (factors.tokens ++ .closing :: rest) := by
  cases factors with
  | nil => exact .closing rest
  | cons factor factors => exact .operator factor.1 _

theorem Factors.tokens_cons (divides : Bool) (factor : Parsed semantics)
    (factors : Factors semantics) :
    Factors.tokens ((divides, factor) :: factors) =
      operator divides :: (enclosed factor.tokens ++ Factors.tokens factors) := by
  simp [Factors.tokens]

namespace Parsed

variable (factor : Parsed semantics) {rest : List Token} (ends : EndsFactor rest)

include ends

theorem read_power :
    read semantics .power (enclosed factor.tokens ++ rest) = .ok (factor.value, rest) := by
  rw [read_eq_step, step, (isAtom_enclosed factor.parses).reads rest ends.atEnd]
  exact ends.read_powerTail factor.value

theorem read_product :
    read semantics .product (enclosed factor.tokens ++ rest) =
      read semantics (.productTail factor.value) rest := by
  rw [read_eq_step, step, factor.read_power ends]
  rfl

end Parsed

theorem read_productTail_factors (value : V) (factors : Factors semantics) (rest : List Token) :
    read semantics (.productTail value) (factors.tokens ++ .closing :: rest) =
      compute (multiplyOut value factors) (.closing :: rest) := by
  fun_induction multiplyOut value factors with
  | case1 value => exact read_productTail_ends (.closing rest)
  | case2 value factor factors ih =>
      have ends := Factors.endsFactor factors rest
      rw [Factors.tokens_cons, List.cons_append, List.append_assoc, read_eq_step]
      simp only [operator, Bool.false_eq_true, if_false, step, skipSpaces, factor.read_product ends,
        ih]
      cases multiplyOut factor.value factors <;> rfl
  | case3 value divisor =>
      rw [Factors.tokens_cons, List.cons_append, List.append_assoc, read_eq_step]
      simp only [operator, if_true, step, skipSpaces,
        divisor.read_power (Factors.endsFactor [] rest), Reading.andThen]
      cases semantics.div value divisor.value <;> rfl
  | case4 value divisor divides factor factors ih =>
      have ends := Factors.endsFactor ((divides, factor) :: factors) rest
      have factorEnds := Factors.endsFactor factors rest
      rw [Factors.tokens_cons, List.cons_append, List.append_assoc, read_eq_step]
      simp only [operator, if_true, step, skipSpaces, divisor.read_power ends, Reading.andThen]
      cases semantics.div value divisor.value with
      | error error => rfl
      | ok quotient =>
          have term : termAfterQuotient
              (Factors.tokens ((divides, factor) :: factors) ++ .closing :: rest) =
                some (enclosed factor.tokens ++ (Factors.tokens factors ++ .closing :: rest)) := by
            rw [Factors.tokens_cons, List.cons_append, List.append_assoc]
            cases divides <;> rfl
          simp only [compute, term, factor.read_product factorEnds, ih]
          cases multiplyOut factor.value factors <;> rfl

theorem parse_factors (first : Parsed semantics) (factors : Factors semantics) :
    parse semantics (enclosed first.tokens ++ factors.tokens) =
      (multiplyOut first.value factors).mapError .arithmetic := by
  apply parse_of_compute
  have product : read semantics .product
      (enclosed first.tokens ++ (factors.tokens ++ [Token.closing])) =
        compute (multiplyOut first.value factors) [.closing] := by
    rw [first.read_product (factors.endsFactor []), read_productTail_factors]
  rw [List.append_assoc, read_group_begins rfl, read_sum_begins rfl, product]
  cases multiplyOut first.value factors with
  | error error => rfl
  | ok value =>
      change (read semantics (.sumTail value) [.closing]).andThen closeGroup = _
      rw [read_sumTail_closing]
      rfl

/-- A chain of factors in parentheses with stars and slashes between them. In particular
`(a)/(b)/(c)/(d)` is the product of two quotients, `(a)/(b)*(c)` multiplies the quotient, and
`(a)*(b)/(c)` multiplies by a quotient. -/
theorem ofTokens_factors (first : Parsed Complex.semantics)
    (factors : Factors Complex.semantics) :
    Complex.ofTokens (enclosed first.tokens ++ factors.tokens) =
      evaluated (multiplyOut first.value factors) ∧
    ∀ second third fourth : Parsed Complex.semantics,
      Complex.ofTokens (enclosed first.tokens ++ .slash :: enclosed second.tokens ++
          .slash :: enclosed third.tokens ++ .slash :: enclosed fourth.tokens) =
        evaluated (do
          Complex.product (← Complex.quotient first.value second.value)
            (← Complex.quotient third.value fourth.value)) ∧
      Complex.ofTokens (enclosed first.tokens ++ .slash :: enclosed second.tokens ++
          .star :: enclosed third.tokens) =
        evaluated (do Complex.product (← Complex.quotient first.value second.value) third.value) ∧
      Complex.ofTokens (enclosed first.tokens ++ .star :: enclosed second.tokens ++
          .slash :: enclosed third.tokens) =
        evaluated (do
          Complex.product first.value (← Complex.quotient second.value third.value)) := by
  have read (factors : Factors Complex.semantics) :
      Complex.ofTokens (enclosed first.tokens ++ factors.tokens) =
        evaluated (multiplyOut first.value factors) := parse_factors first factors
  refine ⟨read factors, fun second third fourth => ⟨?_, ?_, ?_⟩⟩
  · exact (congrArg Complex.ofTokens (by simp [Factors.tokens, operator])).trans
      (read [(true, second), (true, third), (true, fourth)])
  · exact (congrArg Complex.ofTokens (by simp [Factors.tokens, operator])).trans
      (read [(true, second), (false, third)])
  · exact (congrArg Complex.ofTokens (by simp [Factors.tokens, operator])).trans
      (read [(false, second), (true, third)])

/-- `(60)/(12)/(6)/(4)` is seven and a half, the product of five and of one and a half. -/
theorem ofTokens_factors_four :
    let sixty : Parsed Complex.semantics := ⟨[.number "60"], ⟨60, 0⟩, by decide +kernel⟩
    let twelve : Parsed Complex.semantics := ⟨[.number "12"], ⟨12, 0⟩, by decide +kernel⟩
    let six : Parsed Complex.semantics := ⟨[.number "6"], ⟨6, 0⟩, by decide +kernel⟩
    let four : Parsed Complex.semantics := ⟨[.number "4"], ⟨4, 0⟩, by decide +kernel⟩
    let factors : Factors Complex.semantics := [(true, twelve), (true, six), (true, four)]
    Complex.ofTokens (enclosed sixty.tokens ++ factors.tokens) = .ok ⟨7.5, 0⟩ ∧
      Complex.ofTokens (enclosed sixty.tokens ++ .slash :: enclosed twelve.tokens ++
        .star :: enclosed six.tokens) = .ok ⟨30, 0⟩ ∧
      Complex.ofTokens (enclosed sixty.tokens ++ .star :: enclosed twelve.tokens ++
        .slash :: enclosed six.tokens) = .ok ⟨120, 0⟩ := by
  intro sixty twelve six four factors
  obtain ⟨read, readings⟩ := ofTokens_factors sixty factors
  obtain ⟨-, quotientFirst, productFirst⟩ := readings twelve six four
  have value : evaluated (multiplyOut sixty.value factors) = .ok ⟨7.5, 0⟩ := by decide +kernel
  exact ⟨read.trans value, quotientFirst.trans (by decide +kernel),
    productFirst.trans (by decide +kernel)⟩

end ComplexCalculator.Grammar
