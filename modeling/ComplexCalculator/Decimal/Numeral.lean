import ComplexCalculator.Binary64

/-!
Numerals: the written form of a number, and the double it stands for.

Reading is split in two. `Numeral.read?` decides what is written, exactly; it fails on what
is no numeral. `Numeral.toFloat` then rounds to the nearest double, which never fails: what
is too large becomes infinite and is refused where a complex number is built.
-/

namespace ComplexCalculator.Decimal

open Binary64 (ofWord nearestWord infinityWord)

inductive Numeral where
  /-- `digits * 10 ^ exponent`, under a sign. -/
  | finite (negative : Bool) (digits : Nat) (exponent : Int)
  | infinity (negative : Bool)
  | undefined
deriving DecidableEq, Repr

namespace Numeral

/-- Splits a leading sign off; `true` is the minus sign. -/
def splitSign : List Char → Bool × List Char
  | '-' :: rest => (true, rest)
  | '+' :: rest => (false, rest)
  | rest => (false, rest)

/-- Reads the exponent part: nothing, or `e` or `E` with an optional sign and at least one
digit. -/
def readExponent? : List Char → Option Int
  | [] => some 0
  | mark :: rest =>
      if mark = 'e' ∨ mark = 'E' then
        let (negative, digits) := splitSign rest
        if digits.isEmpty || !digits.all Char.isDigit then none
        else if negative then some (-(Nat.ofDigitChars 10 digits 0 : Int))
        else some (Nat.ofDigitChars 10 digits 0)
      else none

/-- Reads digits with an optional point, of which at least one digit, and an exponent
part. -/
def readDecimal? (negative : Bool) (text : List Char) : Option Numeral :=
  let whole := text.takeWhile Char.isDigit
  let (decimals, rest) := match text.dropWhile Char.isDigit with
    | '.' :: rest => (rest.takeWhile Char.isDigit, rest.dropWhile Char.isDigit)
    | rest => ([], rest)
  if whole.isEmpty && decimals.isEmpty then none
  else (readExponent? rest).map fun exponent =>
    .finite negative (Nat.ofDigitChars 10 (whole ++ decimals) 0) (exponent - decimals.length)

/-- Reads a numeral: an optional sign, then `inf`, `infinity` or `nan` in any case, or a
decimal. -/
def read? (text : List Char) : Option Numeral :=
  let (negative, rest) := splitSign text
  let name := rest.map Char.toLower
  if name = ['i', 'n', 'f'] ∨ name = ['i', 'n', 'f', 'i', 'n', 'i', 't', 'y'] then some (.infinity negative)
  else if name = ['n', 'a', 'n'] then some .undefined
  else readDecimal? negative rest

/-- The word of the double nearest to `digits * 10 ^ exponent`.

Beyond the powers `10 ^ 310` and `10 ^ -330` the answer is infinity and zero whatever the
digits are, so the power of ten itself is not computed there. -/
def nearestToDecimal (digits : Nat) (exponent : Int) : Nat :=
  let size := ((Nat.toDigits 10 digits).length : Int) + exponent
  if digits = 0 ∨ size < -330 then 0
  else if 310 < size then infinityWord
  else match exponent with
    | .ofNat power => nearestWord (digits * Nat.pow 10 power) 1
    | .negSucc power => nearestWord digits (Nat.pow 10 (power + 1))

def toFloat : Numeral → Float
  | finite negative digits exponent => ofWord negative (nearestToDecimal digits exponent)
  | infinity negative => ofWord negative infinityWord
  | undefined => ofWord false (infinityWord + Nat.pow 2 51)

end Numeral

end ComplexCalculator.Decimal
