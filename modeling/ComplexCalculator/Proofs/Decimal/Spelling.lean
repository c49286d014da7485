import Mathlib
import ComplexCalculator.Decimal.Numeral

namespace ComplexCalculator.Decimal

def AllDigits (text : List Char) : Prop := ∀ c ∈ text, c.isDigit = true

def point : List Char → List Char
  | [] => []
  | digit :: rest => '.' :: digit :: rest

/-- Digits, perhaps followed by a point and more digits. -/
def IsSpelled (text : List Char) : Prop :=
  ∃ whole decimals, whole ≠ [] ∧ AllDigits whole ∧ AllDigits decimals ∧
    text = whole ++ point decimals

def EndsSpelling (tail : List Char) : Prop :=
  ∀ c ∈ tail.head?, c.isDigit = false ∧ c ≠ '.'

/-- The sign that is written before a number. -/
def leadingSign (negative : Bool) : List Char := if negative then ['-'] else []

theorem AllDigits.append {left right : List Char} (first : AllDigits left)
    (second : AllDigits right) : AllDigits (left ++ right) := by
  intro c member
  rcases List.mem_append.mp member with member | member
  · exact first c member
  · exact second c member

theorem takeWhile_digits {digits tail : List Char} (all : AllDigits digits)
    (stop : ∀ c ∈ tail.head?, c.isDigit = false) :
    (digits ++ tail).takeWhile Char.isDigit = digits := by
  rw [List.takeWhile_append_of_pos all]
  cases tail with
  | nil => simp
  | cons c rest => simp [stop c rfl]

theorem dropWhile_digits {digits tail : List Char} (all : AllDigits digits)
    (stop : ∀ c ∈ tail.head?, c.isDigit = false) :
    (digits ++ tail).dropWhile Char.isDigit = tail := by
  rw [List.dropWhile_append_of_pos all]
  cases tail with
  | nil => rfl
  | cons c rest => simp [stop c rfl]

namespace Numeral

theorem readDecimal?_spelled {whole decimals tail : List Char} (negative : Bool)
    (nonempty : whole ≠ []) (wholeDigits : AllDigits whole) (decimalDigits : AllDigits decimals)
    (ends : EndsSpelling tail) :
    readDecimal? negative (whole ++ point decimals ++ tail) =
      (readExponent? tail).map fun exponent =>
        .finite negative (Nat.ofDigitChars 10 (whole ++ decimals) 0)
          (exponent - decimals.length) := by
  have stop : ∀ c ∈ tail.head?, c.isDigit = false := fun c first => (ends c first).1
  rw [List.append_assoc]
  cases decimals with
  | nil =>
      have noPoint : ∀ rest, tail ≠ '.' :: rest := by
        intro rest equal
        subst equal
        exact (ends '.' rfl).2 rfl
      simp only [readDecimal?, point, List.nil_append, takeWhile_digits wholeDigits stop,
        dropWhile_digits wholeDigits stop]
      simp [nonempty]
  | cons digit rest =>
      have stopPoint : ∀ c ∈ (point (digit :: rest) ++ tail).head?, c.isDigit = false := by
        intro c first
        cases first
        rfl
      simp only [readDecimal?, takeWhile_digits wholeDigits stopPoint,
        dropWhile_digits wholeDigits stopPoint]
      simp only [point, List.cons_append]
      rw [← List.cons_append, takeWhile_digits decimalDigits stop,
        dropWhile_digits decimalDigits stop]
      simp

theorem splitSign_digit {digit : Char} (rest : List Char) (isDigit : digit.isDigit = true) :
    splitSign (digit :: rest) = (false, digit :: rest) := by
  unfold splitSign
  split
  · rename_i front; cases front; contradiction
  · rename_i front; cases front; contradiction
  · rfl

/-- No digit becomes the first letter of a name in lower case. -/
theorem toLower_digit {digit : Char} (isDigit : digit.isDigit = true) :
    digit.toLower ≠ 'i' ∧ digit.toLower ≠ 'n' := by
  have lower : digit.toLower = digit := by
    have bound : digit.val ≤ 57 := by
      simp only [Char.isDigit, Bool.and_eq_true, decide_eq_true_eq] at isDigit
      exact isDigit.2
    simp only [Char.toLower]
    rw [dif_neg]
    intro holds
    obtain ⟨low, _⟩ := holds
    have := UInt32.le_trans low bound
    contradiction
  rw [lower]
  constructor <;> rintro rfl <;> contradiction

theorem read?_signed {whole decimals tail : List Char} (negative : Bool) (nonempty : whole ≠ [])
    (wholeDigits : AllDigits whole) (decimalDigits : AllDigits decimals)
    (ends : EndsSpelling tail) :
    read? (leadingSign negative ++ (whole ++ point decimals ++ tail)) =
      (readExponent? tail).map fun exponent =>
        .finite negative (Nat.ofDigitChars 10 (whole ++ decimals) 0)
          (exponent - decimals.length) := by
  rw [← readDecimal?_spelled negative nonempty wholeDigits decimalDigits ends]
  obtain ⟨digit, rest, rfl⟩ := List.exists_cons_of_ne_nil nonempty
  have isDigit := wholeDigits digit (by simp)
  obtain ⟨notI, notN⟩ := toLower_digit isDigit
  cases negative with
  | false => simp [read?, leadingSign, splitSign_digit _ isDigit, notI, notN]
  | true => simp [read?, leadingSign, splitSign, notI, notN]

theorem read?_spelled {whole decimals tail : List Char} (nonempty : whole ≠ [])
    (wholeDigits : AllDigits whole) (decimalDigits : AllDigits decimals)
    (ends : EndsSpelling tail) :
    read? (whole ++ point decimals ++ tail) =
      (readExponent? tail).map fun exponent =>
        .finite false (Nat.ofDigitChars 10 (whole ++ decimals) 0)
          (exponent - decimals.length) :=
  read?_signed false nonempty wholeDigits decimalDigits ends

theorem readExponent?_signed {digits : List Char} (negative : Bool) (nonempty : digits ≠ [])
    (all : AllDigits digits) :
    readExponent? ('e' :: (if negative then '-' else '+') :: digits) =
      some (if negative then -(Nat.ofDigitChars 10 digits 0 : Int)
        else Nat.ofDigitChars 10 digits 0) := by
  have every : digits.all Char.isDigit = true := List.all_eq_true.mpr all
  cases negative <;> simp [readExponent?, splitSign, nonempty, every]

end Numeral

theorem endsSpelling_nil : EndsSpelling [] := nofun

theorem endsSpelling_exponent (rest : List Char) : EndsSpelling ('e' :: rest) := by
  intro c first
  cases first
  decide

theorem IsSpelled.read?_isSome {text : List Char} (spelled : IsSpelled text) :
    (Numeral.read? text).isSome = true := by
  obtain ⟨whole, decimals, nonempty, wholeDigits, decimalDigits, rfl⟩ := spelled
  have read := Numeral.read?_spelled nonempty wholeDigits decimalDigits endsSpelling_nil
  rw [List.append_nil] at read
  simp [read, Numeral.readExponent?]

theorem IsSpelled.read?_exponent_isSome {text digits : List Char} (negative : Bool)
    (spelled : IsSpelled text) (nonempty : digits ≠ []) (all : AllDigits digits) :
    (Numeral.read? (text ++ 'e' :: (if negative then '-' else '+') :: digits)).isSome =
      true := by
  obtain ⟨whole, decimals, wholeNonempty, wholeDigits, decimalDigits, rfl⟩ := spelled
  rw [Numeral.read?_spelled wholeNonempty wholeDigits decimalDigits (endsSpelling_exponent _),
    Numeral.readExponent?_signed negative nonempty all]
  rfl

theorem IsSpelled.ne_nil {text : List Char} (spelled : IsSpelled text) : text ≠ [] := by
  obtain ⟨whole, decimals, nonempty, _, _, rfl⟩ := spelled
  simp [nonempty]

end ComplexCalculator.Decimal
