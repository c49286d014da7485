import ComplexCalculator.Binary64
import ComplexCalculator.Cartesian

namespace ComplexCalculator

abbrev Complex := Cartesian Float

inductive ArithmeticError where
  /-- A part of the result is infinite or undefined. -/
  | notFinite (re im : Float)
  /-- The quotient is not finite. -/
  | division (numerator denominator : Complex)
deriving DecidableEq

namespace Complex

def isFinite (z : Complex) : Bool :=
  Binary64.isFinite z.re && Binary64.isFinite z.im

/-- A result counts only if both its parts are finite. -/
def checked (z : Complex) : Except ArithmeticError Complex :=
  if z.isFinite then .ok z else .error (.notFinite z.re z.im)

def zero : Complex := ⟨0, 0⟩

def one : Complex := ⟨1, 0⟩

def imaginaryUnit : Complex := ⟨0, 1⟩

def euler : Complex := ⟨Float.ofBits 0x4005bf0a8b145769, 0⟩

def pi : Float := Float.ofBits 0x400921fb54442d18

def ofReal (x : Float) : Except ArithmeticError Complex :=
  checked ⟨x, 0⟩

def sum (a b : Complex) : Except ArithmeticError Complex :=
  checked (a.add b)

def difference (a b : Complex) : Except ArithmeticError Complex :=
  checked (a.sub b)

def product (a b : Complex) : Except ArithmeticError Complex :=
  checked (a.mul b)

/-- The quotient; its failure names both operands, not the parts of the result. -/
def quotient (a b : Complex) : Except ArithmeticError Complex :=
  let result := a.div b
  if isFinite result then .ok result else .error (.division a b)

def negate (z : Complex) : Complex :=
  z.neg

/-- The modulus. It may overflow even when both parts are finite. -/
def modulus (z : Complex) : Float :=
  z.normSq.sqrt

/-- The argument, in the half-open interval from -π (excluded) to π. The imaginary part is
taken as a positive zero when it is a zero, so that negative reals have the argument π. -/
def argument (z : Complex) : Float :=
  let size := modulus z
  let scale := if size == 0 then 1 else size
  let height := if z.im == 0 then 0 else z.im / scale
  Float.atan2 height (z.re / scale)

def exp (z : Complex) : Except ArithmeticError Complex :=
  let size := z.re.exp
  checked ⟨size * z.im.cos, size * z.im.sin⟩

/-- The principal branch of the logarithm. -/
def ln (z : Complex) : Except ArithmeticError Complex :=
  checked ⟨(modulus z).log, argument z⟩

/-- `base` to the power `exponent`, as the exponential of `exponent` times the logarithm of
`base`. Zero has no logarithm, hence no powers. -/
def power (base exponent : Complex) : Except ArithmeticError Complex := do
  let logarithm ← ln base
  exp (← product exponent logarithm)

end Complex

end ComplexCalculator
