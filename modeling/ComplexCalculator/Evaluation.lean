import ComplexCalculator.Complex
import ComplexCalculator.Display
import ComplexCalculator.Grammar.Reader

namespace ComplexCalculator

abbrev EvaluationError := Failure ArithmeticError

namespace Complex

/-- The meaning of the grammar in the complex numbers. -/
def semantics : Grammar.Semantics Complex ArithmeticError where
  number numeral := ofReal numeral.toFloat
  euler := euler
  imaginaryUnit := imaginaryUnit
  zero := zero
  one := one
  add := sum
  sub := difference
  mul := product
  div := quotient
  pow := power
  exp := exp
  ln := ln
  neg := negate

def ofTokens (tokens : List Token) : Except EvaluationError Complex :=
  Grammar.parse semantics tokens

/-- The value of an expression. -/
def ofText (text : String) : Except EvaluationError Complex :=
  ofTokens (Token.ofText text)

end Complex

structure Renderings where
  pretty : String := ""
  polar : String := ""
  fixed : String := ""
  precision : String := ""
deriving DecidableEq, Repr

def Renderings.get (renderings : Renderings) : Form → String
  | .pretty => renderings.pretty
  | .polar => renderings.polar
  | .fixed => renderings.fixed
  | .precision => renderings.precision

/-- How a result came about: the tokens read, the modulus and the argument, and a remark. -/
structure Working where
  tokens : String := ""
  modulus : String := ""
  argument : String := ""
  note : String := ""
deriving DecidableEq, Repr

def Working.pipelineNote : String :=
  "Pipeline: normalisation → jetons → (parenthèses → addition → multiplication → " ++
    "puissance → atome) → formes."

/-- The answer to an expression: its value, the value in the chosen form, and what is shown
beside it. -/
structure Answer where
  value : Complex
  result : String
  renderings : Renderings
  working : Working
deriving DecidableEq

namespace Answer

def ofValue (settings : Settings) (tokens : List Token) (value : Complex) : Answer where
  value := value
  result := Display.render settings value
  renderings :=
    { pretty := Display.pretty value
      polar := Display.polar value
      fixed := Display.fixed settings.digits value
      precision := Display.precision settings.digits value }
  working :=
    { tokens := Token.listing tokens
      modulus := Display.real value.modulus
      argument := Display.real value.argument
      note := Working.pipelineNote }

/-- The answer to an expression. -/
def ofText (settings : Settings) (text : String) : Except EvaluationError Answer :=
  let tokens := Token.ofText text
  (Complex.ofTokens tokens).map (ofValue settings tokens)

end Answer

end ComplexCalculator
