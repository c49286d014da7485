import ComplexCalculator.Decimal.Fixed

namespace ComplexCalculator.Decimal

open Binary64 (word units unitsPerOne)

/-- `digits / 10 ^ decimals * 10 ^ exponent`, with one digit before the point. -/
structure Scientific where
  digits : Nat
  decimals : Nat
  exponent : Int
deriving DecidableEq, Repr

/-- The exponent of the leading decimal digit of a positive magnitude: the greatest `e`
with `10 ^ e` at most the magnitude. -/
def leadingExponent (word : Nat) : Int :=
  if unitsPerOne ≤ units word then (Nat.toDigits 10 (units word / unitsPerOne)).length - 1
  else -((Nat.toDigits 10 ((unitsPerOne - 1) / units word)).length : Int)

/-- The magnitude with this word in multiples of `10 ^ step`, rounded. -/
def roundedTo (word : Nat) : Int → Nat
  | .ofNat step => roundDiv (units word) (unitsPerOne * Nat.pow 10 step)
  | .negSucc step => roundDiv (units word * Nat.pow 10 (step + 1)) unitsPerOne

/-- The positive magnitude with this word, rounded to `decimals` digits after the first
one. Rounding up to the next power of ten raises the exponent. -/
def Scientific.ofWord (word decimals : Nat) : Scientific :=
  let exponent := leadingExponent word
  let rounded := roundedTo word (exponent - decimals)
  if rounded = Nat.pow 10 (decimals + 1) then ⟨Nat.pow 10 decimals, decimals, exponent + 1⟩
  else ⟨rounded, decimals, exponent⟩

/-- An exponent with its sign, which is always written. -/
def signedExponent : Int → String
  | .ofNat exponent => "+" ++ String.ofList (Nat.toDigits 10 exponent)
  | .negSucc exponent => "-" ++ String.ofList (Nat.toDigits 10 (exponent + 1))

/-- The text `d.ddde+x`. -/
def Scientific.text (number : Scientific) : String :=
  String.ofList (placed number.digits number.decimals) ++ "e" ++
    signedExponent number.exponent

/-- The positive magnitude with this word, written with `count` significant digits.

The notation is chosen by the exponent of the *rounded* number: `9.9999` with three digits
is `10.0`. -/
def significant (word count : Nat) : String :=
  let number := Scientific.ofWord word (count - 1)
  if number.exponent < -6 ∨ (count : Int) ≤ number.exponent then number.text
  else fixedMagnitude word ((count : Int) - 1 - number.exponent).toNat

end ComplexCalculator.Decimal
