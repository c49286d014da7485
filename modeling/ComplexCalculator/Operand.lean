import ComplexCalculator.Evaluation

namespace ComplexCalculator

def evaluated {α : Type} (result : Except ArithmeticError α) : Except EvaluationError α :=
  result.mapError .arithmetic

inductive Operand where
  | real (x : Float)
  | value (z : Complex)
  /-- An expression, which is evaluated when an operation needs it. -/
  | text (expression : String)
deriving DecidableEq

namespace Operand

/-- The value of an operand. A complex value is taken as it is. -/
def resolve : Operand → Except EvaluationError Complex
  | real x => evaluated (Complex.ofReal x)
  | value z => .ok z
  | text expression => Complex.ofText expression

end Operand

/-- Combines operands from the left: resolve the first, resolve the second, combine them,
resolve the third, and so on. Without operands the result is `neutral`. -/
def foldOperands {ι V ε : Type} (resolve : ι → Except ε V) (neutral : V)
    (combine : V → V → Except ε V) : List ι → Except ε V
  | [] => .ok neutral
  | first :: rest => do
      rest.foldlM (fun value operand => do combine value (← resolve operand))
        (← resolve first)

/-- The operations that take any number of operands. -/
inductive Operation where
  | sum
  | difference
  | product
  | quotient
  /-- The exponential of the product of the operands. -/
  | exp
  /-- The logarithm of the product of the operands. -/
  | ln
deriving DecidableEq, Repr

namespace Operation

def fold (combine : Complex → Complex → Except ArithmeticError Complex) (neutral : Complex)
    (operands : List Operand) : Except EvaluationError Complex :=
  foldOperands Operand.resolve neutral (fun a b => evaluated (combine a b)) operands

def apply : Operation → List Operand → Except EvaluationError Complex
  | sum, operands => fold Complex.sum Complex.zero operands
  | difference, operands => fold Complex.difference Complex.zero operands
  | product, operands => fold Complex.product Complex.one operands
  | quotient, operands => fold Complex.quotient Complex.one operands
  | exp, operands => do
      evaluated (Complex.exp (← fold Complex.product Complex.one operands))
  | ln, operands => do
      evaluated (Complex.ln (← fold Complex.product Complex.one operands))

end Operation

namespace Operand

/-- `base` to the power `exponent`. The logarithm of the base is taken before the exponent
is resolved. -/
def power (base exponent : Operand) : Except EvaluationError Complex := do
  let logarithm ← Operation.ln.apply [base]
  Operation.exp.apply [exponent, value logarithm]

/-- The number made of a first term and an imaginary term. A real second term is added to
the imaginary part. Of any other term the imaginary part is added, and the real part, unless
it is zero, subtracted from the real part. -/
def withTerm (first second : Operand) : Except EvaluationError Complex := do
  let base ← first.resolve
  match second with
  | real x => evaluated (Complex.checked ⟨base.re, base.im + x⟩)
  | second => do
      let term ← second.resolve
      let re := if term.re == 0 then base.re else base.re - term.re
      evaluated (Complex.checked ⟨re, base.im + term.im⟩)

end Operand

end ComplexCalculator
