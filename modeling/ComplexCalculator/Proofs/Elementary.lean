import ComplexCalculator.Evaluation

/-!
The elementary functions of the platform.

The program takes the exponential, the logarithm, the cosine, the sine and the two-argument
arctangent of doubles from its platform and does not define them. Here they are parameters:
`semantics`, `ofText` and `render` are the program over any such functions, and over `native` they
are the program itself. `Regular` says that their values stay within their ranges.
-/

namespace ComplexCalculator

open Binary64 (word infinityWord)

structure Elementary where
  exp : Float → Float
  log : Float → Float
  cos : Float → Float
  sin : Float → Float
  atan2 : Float → Float → Float

namespace Elementary

/-- The functions that the program runs with. -/
def native : Elementary := ⟨Float.exp, Float.log, Float.cos, Float.sin, Float.atan2⟩

/-- What the documentation of these functions promises for every argument: the cosine and the sine
do not exceed one, the arctangent of two numbers does not exceed π, and the exponential of zero is
one. -/
structure Regular (f : Elementary) : Prop where
  exp_zero : f.exp 0 = 1
  cos_le (x : Float) (finite : Binary64.isFinite x = true) : word (f.cos x) ≤ word 1
  sin_le (x : Float) (finite : Binary64.isFinite x = true) : word (f.sin x) ≤ word 1
  atan2_le (y x : Float) (yNumber : word y ≤ infinityWord) (xNumber : word x ≤ infinityWord) :
    word (f.atan2 y x) ≤ word Complex.pi

variable (f : Elementary)

def argument (z : Complex) : Float :=
  let size := z.modulus
  let scale := if size == 0 then 1 else size
  let height := if z.im == 0 then 0 else z.im / scale
  f.atan2 height (z.re / scale)

def exponential (z : Complex) : Except ArithmeticError Complex :=
  let size := f.exp z.re
  Complex.checked ⟨size * f.cos z.im, size * f.sin z.im⟩

def logarithm (z : Complex) : Except ArithmeticError Complex :=
  Complex.checked ⟨f.log z.modulus, f.argument z⟩

def power (base exponent : Complex) : Except ArithmeticError Complex := do
  let logarithm ← f.logarithm base
  f.exponential (← Complex.product exponent logarithm)

def semantics : Grammar.Semantics Complex ArithmeticError :=
  { Complex.semantics with pow := f.power, exp := f.exponential, ln := f.logarithm }

def ofTokens (tokens : List Token) : Except EvaluationError Complex :=
  Grammar.parse f.semantics tokens

def ofText (text : String) : Except EvaluationError Complex :=
  f.ofTokens (Token.ofText text)

def polar (z : Complex) : String :=
  if Display.prettyPart (word z.im) = none then Display.pretty z
  else
    Display.real z.modulus ++ "e^(" ++ Display.real (f.argument z / Complex.pi) ++ "jπ)"

def render (settings : Settings) (z : Complex) : String :=
  match settings.form with
  | .pretty => Display.pretty z
  | .polar => f.polar z
  | .fixed => Display.fixed settings.digits z
  | .precision => Display.precision settings.digits z

theorem semantics_native : native.semantics = Complex.semantics := rfl

theorem ofText_native : native.ofText = Complex.ofText := by
  funext text
  rw [ofText, ofTokens, semantics_native]
  rfl

theorem polar_native : native.polar = Display.polar := rfl

theorem render_native : native.render = Display.render := rfl

end Elementary

end ComplexCalculator
