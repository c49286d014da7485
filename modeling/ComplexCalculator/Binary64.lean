import ComplexCalculator.Decimal.Rounding

/-!
Double-precision numbers as exact numbers.

A double is a sign and a *word*, the other 63 bits read as a natural number. Words order
the magnitudes. Every finite magnitude is a whole number of *units* of `2 ^ -1074`, the
least positive double, so exact statements about doubles are statements about natural
numbers. `nearestWord` goes the other way: it rounds an exact quotient to a word.
-/

namespace ComplexCalculator.Binary64

open Decimal (roundDiv)

/-- The magnitude bits of `x`: its bit pattern without the sign. -/
def word (x : Float) : Nat := x.toBits.toNat % Nat.pow 2 63

/-- The sign bit of `x`; it is also set for the negative zero. -/
def isNegative (x : Float) : Bool := decide (Nat.pow 2 63 ≤ x.toBits.toNat)

/-- The word of infinity. The words below it are the finite magnitudes, those above it
are not numbers. -/
def infinityWord : Nat := 2047 * Nat.pow 2 52

/-- Whether `x` is a number: neither infinite nor undefined. -/
def isFinite (x : Float) : Bool := decide (word x < infinityWord)

/-- How many units of `2 ^ -1074` the magnitude with this word holds. The upper bits are
the binade: in the lowest one the word counts units, and each further binade doubles the
step between neighbours. -/
def units (word : Nat) : Nat :=
  if word < Nat.pow 2 52 then word
  else (word % Nat.pow 2 52 + Nat.pow 2 52) * Nat.pow 2 (word / Nat.pow 2 52 - 1)

def unitsPerOne : Nat := Nat.pow 2 1074

def ofWord (negative : Bool) (word : Nat) : Float :=
  Float.ofBits (UInt64.ofNat ((if negative then Nat.pow 2 63 else 0) + word))

/-- The word of the double nearest to `num / den`; a tie goes to the even word, and what
exceeds the largest finite double by half a step or more is infinite.

In the binade of the quotient the step is `2 ^ shift` units. Rounding up into the next
binade needs no special care, for its least word follows the greatest of this one. -/
def nearestWord (num den : Nat) : Nat :=
  let shift := (num * unitsPerOne / den).log2 - 52
  min (shift * Nat.pow 2 52 + roundDiv (num * unitsPerOne) (den * Nat.pow 2 shift)) infinityWord

end ComplexCalculator.Binary64
