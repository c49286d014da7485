import ComplexCalculator.Decimal.Scientific

/-!
The shortest decimal text of a double.

A decimal *reads back* as a magnitude when it lies in the interval of numbers that round to
it: between the midpoints to the two neighbouring words, ends included exactly when the word
is even. The text has the fewest digits that read back, and of those the nearest to the exact
value, an exact tie going up. It is positional whatever the size: `1e300` is a one and three
hundred zeros.
-/

namespace ComplexCalculator.Decimal

open Binary64 (word units unitsPerOne infinityWord)

/-- The decimal `digits * 10 ^ exponent`. -/
structure Scaled where
  digits : Nat
  exponent : Int
deriving DecidableEq, Repr

namespace Scaled

/-- The decimal as a quotient of natural numbers. -/
def ratio (number : Scaled) : Nat × Nat :=
  match number.exponent with
  | .ofNat exponent => (number.digits * Nat.pow 10 exponent, 1)
  | .negSucc exponent => (number.digits, Nat.pow 10 (exponent + 1))

/-- Whether the decimal lies in the interval of numbers that round to this word. -/
def readsBackAs (number : Scaled) (word : Nat) : Bool :=
  let (num, den) := number.ratio
  let twice := num * (2 * unitsPerOne)
  let low := (units (word - 1) + units word) * den
  let high := (units word + units (word + 1)) * den
  if word % 2 = 0 then decide (low ≤ twice) && decide (twice ≤ high)
  else decide (low < twice) && decide (twice < high)

/-- Whether the exact magnitude is at least half way from `number` to the next decimal with
the same exponent. -/
def nextIsNearer (number : Scaled) (word : Nat) : Bool :=
  let (num, den) := number.ratio
  let (following, _) := ({ number with digits := number.digits + 1 } : Scaled).ratio
  decide ((num + following) * unitsPerOne ≤ 2 * (units word * den))

/-- The greatest decimal with this exponent that does not exceed the magnitude. -/
def below (word : Nat) (exponent : Int) : Scaled :=
  match exponent with
  | .ofNat step => ⟨units word / (unitsPerOne * Nat.pow 10 step), exponent⟩
  | .negSucc step => ⟨units word * Nat.pow 10 (step + 1) / unitsPerOne, exponent⟩

/-- The better of the two neighbours of the magnitude with this exponent that read back. -/
def candidate (word : Nat) (exponent : Int) : Option Scaled :=
  let low := below word exponent
  let high : Scaled := { low with digits := low.digits + 1 }
  match low.readsBackAs word, high.readsBackAs word with
  | true, true => some (if low.nextIsNearer word then high else low)
  | true, false => some low
  | false, true => some high
  | false, false => none

/-- The decimal of fewest digits that reads back as this positive word. The search begins
with the power of ten above the magnitude; seventeen digits always suffice. -/
def shortest (word : Nat) : Scaled :=
  let leading := leadingExponent word
  match (List.range 18).findSome? fun (count : Nat) => candidate word (leading + 1 - count) with
  | some number => number
  | none => below word (leading - 16)

/-- The positional text of a decimal. -/
def positional (number : Scaled) : String :=
  match number.exponent with
  | .ofNat exponent => String.ofList (Nat.toDigits 10 (number.digits * Nat.pow 10 exponent))
  | .negSucc exponent => String.ofList (placed number.digits (exponent + 1))

end Scaled

/-- The shortest text of `x`; zero is `0` or `-0`. -/
def shortestText (x : Float) : String :=
  signed x
    (if word x = 0 then "0"
     else if word x < infinityWord then (Scaled.shortest (word x)).positional
     else fixedMagnitude (word x) 0)

end ComplexCalculator.Decimal
