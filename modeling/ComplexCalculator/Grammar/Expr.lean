import ComplexCalculator.Grammar.Reader

namespace ComplexCalculator.Grammar

open Decimal (Numeral)

inductive Expr where
  | number (numeral : Numeral)
  | euler
  | imaginaryUnit
  | zero
  | one
  | add (left right : Expr)
  | sub (left right : Expr)
  | mul (left right : Expr)
  | div (left right : Expr)
  | pow (base exponent : Expr)
  | exp (argument : Expr)
  | ln (argument : Expr)
  | neg (argument : Expr)
deriving DecidableEq, Repr

namespace Expr

/-- The semantics that builds the tree of an expression. -/
def builder : Semantics Expr Empty where
  number numeral := .ok (number numeral)
  euler := euler
  imaginaryUnit := imaginaryUnit
  zero := zero
  one := one
  add left right := .ok (add left right)
  sub left right := .ok (sub left right)
  mul left right := .ok (mul left right)
  div left right := .ok (div left right)
  pow base exponent := .ok (pow base exponent)
  exp argument := .ok (exp argument)
  ln argument := .ok (ln argument)
  neg := neg

def parse (tokens : List Token) : Except (Failure Empty) Expr :=
  Grammar.parse builder tokens

/-- The value of a tree, or the first failure among its operations. -/
def eval {V ε : Type} (semantics : Semantics V ε) : Expr → Except ε V
  | number numeral => semantics.number numeral
  | euler => .ok semantics.euler
  | imaginaryUnit => .ok semantics.imaginaryUnit
  | zero => .ok semantics.zero
  | one => .ok semantics.one
  | add left right => do semantics.add (← left.eval semantics) (← right.eval semantics)
  | sub left right => do semantics.sub (← left.eval semantics) (← right.eval semantics)
  | mul left right => do semantics.mul (← left.eval semantics) (← right.eval semantics)
  | div left right => do semantics.div (← left.eval semantics) (← right.eval semantics)
  | pow base exponent => do semantics.pow (← base.eval semantics) (← exponent.eval semantics)
  | exp argument => do semantics.exp (← argument.eval semantics)
  | ln argument => do semantics.ln (← argument.eval semantics)
  | neg argument => do return semantics.neg (← argument.eval semantics)

end Expr

end ComplexCalculator.Grammar
