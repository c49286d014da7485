import ComplexCalculator.Complex
import ComplexCalculator.Decimal.Scientific
import ComplexCalculator.Text.Lowercase

namespace ComplexCalculator

open Binary64 (word)

/-- The form in which a number is shown. -/
inductive Form where
  /-- Positional, at most twelve decimals, without ending zeros. -/
  | pretty
  /-- Modulus and argument, the argument in multiples of π. -/
  | polar
  | fixed
  /-- A chosen number of significant digits. -/
  | precision
deriving DecidableEq, Repr

structure UnknownForm where
  name : String
deriving DecidableEq, Repr

namespace Form

def label : Form → String
  | pretty => "joli"
  | polar => "polaire"
  | fixed => "fixe"
  | precision => "précision"

/-- The form with this name. White space around the name and the case of its letters do not
matter, nor does the accent of `précision`. -/
def ofName (name : String) : Except UnknownForm Form :=
  let name := String.ofList (Text.lowercase (Text.trim name.toList))
  if name = "joli" then .ok pretty
  else if name = "polaire" then .ok polar
  else if name = "fixe" then .ok fixed
  else if name = "precision" ∨ name = "précision" then .ok precision
  else .error ⟨name⟩

end Form

def UnknownForm.message (unknown : UnknownForm) : String :=
  "forme inconnue « " ++ unknown.name ++ " » (joli, polaire, fixe, precision)"

/-- How results are shown: the form, and the digits of the two forms that take a number of
them. -/
structure Settings where
  form : Form := .pretty
  digits : Nat := 6
deriving DecidableEq, Repr

namespace Display

/-- Puts the two parts together: the text of the real part with its sign, and the sign and
the unsigned text of the imaginary part. -/
def assemble : Option String → Option (Bool × String) → String
  | none, none => "0"
  | some re, none => re
  | none, some (negative, im) => (if negative then "-" else "") ++ im ++ "j"
  | some re, some (negative, im) => re ++ (if negative then "-" else "+") ++ im ++ "j"

/-- Writes both parts with `part`, which gives the unsigned text of a magnitude, or nothing
when the part is to be omitted. -/
def byParts (part : Nat → Option String) (z : Complex) : String :=
  assemble ((part (word z.re)).map (Decimal.signed z.re))
    ((part (word z.im)).map fun text => (Binary64.isNegative z.im, text))

/-- A magnitude to twelve decimals, without ending zeros; nothing when it shows as zero. -/
def prettyPart (word : Nat) : Option String :=
  let text := Decimal.prune (Decimal.fixedMagnitude word 12)
  if text = "0" then none else some text

/-- A magnitude other than zero, written by `text`. -/
def unlessZero (text : Nat → String) (word : Nat) : Option String :=
  if word = 0 then none else some (text word)

def real (x : Float) : String :=
  ((prettyPart (word x)).map (Decimal.signed x)).getD "0"

/-- The default form. A part that rounds to zero is omitted. -/
def pretty (z : Complex) : String :=
  byParts prettyPart z

/-- Modulus and argument over π, as `re^(tjπ)`. A number whose imaginary part rounds to zero
keeps the default form. -/
def polar (z : Complex) : String :=
  if prettyPart (word z.im) = none then pretty z
  else
    real z.modulus ++ "e^(" ++ real (z.argument / Complex.pi) ++ "jπ)"

/-- `places` decimals in each part. -/
def fixed (places : Nat) (z : Complex) : String :=
  byParts (unlessZero fun word => Decimal.fixedMagnitude word places) z

def maxSignificant : Nat := 17

/-- `digits` significant digits in each part, at least one and at most seventeen. -/
def precision (digits : Nat) (z : Complex) : String :=
  byParts
    (unlessZero fun word => Decimal.significant word (min (max digits 1) maxSignificant)) z

def render (settings : Settings) (z : Complex) : String :=
  match settings.form with
  | .pretty => pretty z
  | .polar => polar z
  | .fixed => fixed settings.digits z
  | .precision => precision settings.digits z

end Display

end ComplexCalculator
