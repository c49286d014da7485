import ComplexCalculator.Binary64
import ComplexCalculator.Decimal.Digits

namespace ComplexCalculator.Decimal

open Binary64 (word units unitsPerOne infinityWord)

/-- The magnitude with this word in multiples of `10 ^ -places`, rounded. -/
def fixedDigits (word places : Nat) : Nat :=
  roundDiv (units word * Nat.pow 10 places) unitsPerOne

/-- The text of a magnitude with `places` decimals, without a sign. -/
def fixedMagnitude (word places : Nat) : String :=
  if word < infinityWord then String.ofList (placed (fixedDigits word places) places)
  else if word = infinityWord then "inf"
  else "NaN"

/-- `text` under the sign of `x`. What is not a number has no sign. -/
def signed (x : Float) (text : String) : String :=
  if Binary64.isNegative x && decide (word x ≤ infinityWord) then "-" ++ text else text

/-- Drops the zeros that end the decimals, and the point when nothing follows it. A text
without a point stays as it is. -/
def prune (text : String) : String :=
  if text.toList.contains '.' then
    String.ofList
      (((text.toList.reverse.dropWhile (· == '0')).dropWhile (· == '.')).reverse)
  else text

end ComplexCalculator.Decimal
