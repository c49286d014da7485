import ComplexCalculator.Decimal.Scientific
import ComplexCalculator.Proofs.Decimal.Powers
import ComplexCalculator.Proofs.Decimal.Spelling

namespace ComplexCalculator.Decimal

open Binary64 (nearestWord nearestWord_mul_right infinityWord)

/-- The parts of the text of an unsigned number. The power of ten is a sign and digits; `true`
is the minus sign. -/
structure Literal where
  whole : List Char
  decimals : List Char
  power : Option (Bool × List Char)
  whole_ne_nil : whole ≠ []
  whole_digits : AllDigits whole
  decimals_digits : AllDigits decimals
  power_digits : ∀ negative digits, power = some (negative, digits) →
    digits ≠ [] ∧ AllDigits digits

namespace Literal

variable (literal : Literal)

def mantissa : List Char := literal.whole ++ point literal.decimals

def suffix : List Char :=
  match literal.power with
  | none => []
  | some (negative, digits) => 'e' :: (if negative then '-' else '+') :: digits

def text : List Char := literal.mantissa ++ literal.suffix

def digits : Nat := Nat.ofDigitChars 10 (literal.whole ++ literal.decimals) 0

def exponent : Int :=
  (match literal.power with
    | none => 0
    | some (negative, digits) =>
        if negative then -(Nat.ofDigitChars 10 digits 0 : Int)
        else Nat.ofDigitChars 10 digits 0) - literal.decimals.length

def word : Nat := Numeral.nearestToDecimal literal.digits literal.exponent

theorem isSpelled_mantissa : IsSpelled literal.mantissa :=
  ⟨literal.whole, literal.decimals, literal.whole_ne_nil, literal.whole_digits,
    literal.decimals_digits, rfl⟩

theorem endsSpelling_suffix : EndsSpelling literal.suffix := by
  unfold suffix
  split
  · exact endsSpelling_nil
  · exact endsSpelling_exponent _

theorem word_plain {literal : Literal} (plain : literal.power = none) :
    literal.word = nearestWord literal.digits (10 ^ literal.decimals.length) := by
  have exponent : literal.exponent = -(literal.decimals.length : Int) := by
    simp [exponent, plain]
  rw [word, exponent, Numeral.nearestToDecimal_eq]
  simp

theorem read?_signed (negative : Bool) :
    Numeral.read? (leadingSign negative ++ literal.text) =
      some (.finite negative literal.digits literal.exponent) := by
  rw [text, mantissa, Numeral.read?_signed negative literal.whole_ne_nil literal.whole_digits
    literal.decimals_digits literal.endsSpelling_suffix]
  unfold suffix exponent
  cases written : literal.power with
  | none => rfl
  | some power =>
      obtain ⟨negative, digits⟩ := power
      obtain ⟨nonempty, all⟩ := literal.power_digits negative digits written
      simp only [Numeral.readExponent?_signed negative nonempty all]
      rfl

theorem read?_text :
    Numeral.read? literal.text = some (.finite false literal.digits literal.exponent) :=
  literal.read?_signed false

end Literal

theorem allDigits_toDigits (n : Nat) : AllDigits (Nat.toDigits 10 n) :=
  fun _ member => Nat.isDigit_of_mem_toDigits (by decide) (by decide) member

theorem allDigits_digitsOfWidth (width n : Nat) : AllDigits (digitsOfWidth width n) := by
  induction width generalizing n with
  | zero => simp [AllDigits, digitsOfWidth_zero]
  | succ width ih =>
      rw [digitsOfWidth_succ]
      refine (ih _).append fun c member => ?_
      obtain rfl := List.mem_singleton.mp member
      have small : n % 10 < 10 := Nat.mod_lt n (by decide)
      rw [Nat.isDigit_digitChar, decide_eq_true small]

section Size

variable {digit : Char} {digits : List Char}

theorem ofDigitChars_lt (all : AllDigits digits) :
    Nat.ofDigitChars 10 digits 0 < 10 ^ digits.length := by
  induction digits with
  | nil => simp
  | cons digit rest ih =>
      obtain ⟨-, small⟩ := Char.isDigit_iff_toNat.mp (all digit List.mem_cons_self)
      have zero : '0'.toNat = 48 := rfl
      have nine : '9'.toNat = 57 := rfl
      have below := ih fun c member => all c (List.mem_cons_of_mem _ member)
      have value : 10 * 0 + (digit.toNat - '0'.toNat) ≤ 9 := by omega
      have product := Nat.mul_le_mul_left (10 ^ rest.length) value
      rw [Nat.ofDigitChars_cons, Nat.ofDigitChars_eq_ofDigitChars_zero, List.length_cons,
        Nat.pow_succ]
      omega

/-- A first digit other than zero decides the size. -/
theorem le_ofDigitChars (isDigit : digit.isDigit = true) (nonzero : digit ≠ '0') :
    10 ^ digits.length ≤ Nat.ofDigitChars 10 (digit :: digits) 0 := by
  obtain ⟨large, -⟩ := Char.isDigit_iff_toNat.mp isDigit
  have other : digit.toNat ≠ '0'.toNat := fun same => nonzero (Char.toNat_inj.mp same)
  have value : 1 ≤ 10 * 0 + (digit.toNat - '0'.toNat) := by omega
  have product := Nat.mul_le_mul_left (10 ^ digits.length) value
  rw [Nat.ofDigitChars_cons, Nat.ofDigitChars_eq_ofDigitChars_zero]
  omega

theorem ofDigitChars_dropWhile (digits : List Char) :
    Nat.ofDigitChars 10 (digits.dropWhile (· == '0')) 0 = Nat.ofDigitChars 10 digits 0 := by
  induction digits with
  | nil => rfl
  | cons digit rest ih =>
      by_cases zero : digit = '0'
      · subst zero
        rw [List.dropWhile_cons_of_pos (by decide), ih, Nat.ofDigitChars_cons]
        rfl
      · rw [List.dropWhile_cons_of_neg (by simpa using zero)]

/-- The digits that are left without leading zeros are counted by the size of the number. -/
theorem length_dropWhile_zeros (all : AllDigits digits) {power : Nat}
    (least : 10 ^ power ≤ Nat.ofDigitChars 10 digits 0)
    (most : Nat.ofDigitChars 10 digits 0 < 10 ^ (power + 1)) :
    (digits.dropWhile (· == '0')).length = power + 1 := by
  rw [← ofDigitChars_dropWhile] at least most
  have kept : AllDigits (digits.dropWhile (· == '0')) :=
    fun c member => all c ((List.dropWhile_suffix _).subset member)
  cases left : digits.dropWhile (· == '0') with
  | nil =>
      rw [left, Nat.ofDigitChars_nil] at least
      exact absurd least (Nat.not_le_of_lt (Numeral.pow_pos_ten _))
  | cons digit rest =>
      have first := List.head_dropWhile_not (· == '0') (l := digits) (by simp [left])
      have nonzero : digit ≠ '0' := by simpa [left] using first
      rw [left] at kept least most
      have lower : 10 ^ rest.length ≤ Nat.ofDigitChars 10 (digit :: rest) 0 :=
        le_ofDigitChars (kept digit List.mem_cons_self) nonzero
      have upper := ofDigitChars_lt kept
      have shorter := (Nat.pow_lt_pow_iff_right (by decide)).mp (Nat.lt_of_le_of_lt lower most)
      have longer := (Nat.pow_lt_pow_iff_right (by decide)).mp (Nat.lt_of_le_of_lt least upper)
      rw [List.length_cons] at longer ⊢
      omega

end Size

def placedLiteral (n places : Nat) : Literal where
  whole := Nat.toDigits 10 (n / 10 ^ places)
  decimals := digitsOfWidth places n
  power := none
  whole_ne_nil := Nat.toDigits_ne_nil
  whole_digits := allDigits_toDigits _
  decimals_digits := allDigits_digitsOfWidth _ _
  power_digits := nofun

theorem point_eq_cons {decimals : List Char} (nonempty : decimals ≠ []) :
    point decimals = '.' :: decimals := by
  cases decimals with
  | nil => contradiction
  | cons digit rest => rfl

theorem mantissa_placedLiteral (n places : Nat) :
    (placedLiteral n places).mantissa = placed n places := by
  unfold placed Literal.mantissa
  by_cases none : places = 0
  · subst none
    simp [placedLiteral, digitsOfWidth_zero, point]
  · have nonempty : digitsOfWidth places n ≠ [] := by
      apply List.ne_nil_of_length_pos
      rw [length_digitsOfWidth]
      exact Nat.pos_of_ne_zero none
    rw [if_neg none]
    simp [placedLiteral, point_eq_cons nonempty]

theorem text_placedLiteral (n places : Nat) :
    (placedLiteral n places).text = placed n places := by
  rw [Literal.text, mantissa_placedLiteral]
  simp [Literal.suffix, placedLiteral]

theorem ofDigitChars_digitsOfWidth (width n : Nat) :
    Nat.ofDigitChars 10 (digitsOfWidth width n) 0 = n % 10 ^ width := by
  induction width generalizing n with
  | zero => simp [digitsOfWidth_zero, Nat.mod_one]
  | succ width ih =>
      rw [digitsOfWidth_succ, Nat.ofDigitChars_append, ih,
        Nat.ofDigitChars_cons_digitChar_of_lt_ten (Nat.mod_lt n (by decide)),
        Nat.ofDigitChars_nil, Nat.pow_succ', Nat.mod_mul]
      omega

theorem ofDigitChars_placed (n places : Nat) :
    Nat.ofDigitChars 10 (Nat.toDigits 10 (n / 10 ^ places) ++ digitsOfWidth places n) 0 = n := by
  rw [Nat.ofDigitChars_append, Nat.ofDigitChars_ten_toDigits, Nat.ofDigitChars_eq_ofDigitChars_zero,
    length_digitsOfWidth, ofDigitChars_digitsOfWidth]
  exact Nat.div_add_mod n (10 ^ places)

theorem digits_placedLiteral (n places : Nat) : (placedLiteral n places).digits = n :=
  ofDigitChars_placed n places

theorem exponent_placedLiteral (n places : Nat) :
    (placedLiteral n places).exponent = -(places : Int) := by
  simp [Literal.exponent, placedLiteral, length_digitsOfWidth]

theorem word_placedLiteral (n places : Nat) :
    (placedLiteral n places).word = nearestWord n (10 ^ places) := by
  rw [Literal.word_plain rfl, digits_placedLiteral, placedLiteral, length_digitsOfWidth]

theorem digit_ne_point {digit : Char} (isDigit : digit.isDigit = true) :
    (digit == '.') = false := by
  cases same : digit == '.' with
  | false => rfl
  | true =>
      obtain rfl := eq_of_beq same
      contradiction

theorem dropWhile_point {digits : List Char} (all : AllDigits digits) :
    digits.dropWhile (· == '.') = digits := by
  cases digits with
  | nil => rfl
  | cons digit rest => simp [digit_ne_point (all digit List.mem_cons_self)]

theorem AllDigits.reverse {digits : List Char} (all : AllDigits digits) :
    AllDigits digits.reverse :=
  fun c member => all c (List.mem_reverse.mp member)

/-- Pruning drops the zeros that end the decimals, and a point without decimals. -/
theorem prune_text {whole kept : List Char} (zeros : Nat) (wholeDigits : AllDigits whole)
    (keptDigits : AllDigits kept) (trimmed : kept.rdropWhile (· == '0') = kept) :
    prune (String.ofList (whole ++ '.' :: (kept ++ List.replicate zeros '0'))) =
      String.ofList (whole ++ point kept) := by
  have reversed : kept.reverse.dropWhile (· == '0') = kept.reverse := by
    have same := congrArg List.reverse trimmed
    rwa [List.rdropWhile, List.reverse_reverse] at same
  have digits := keptDigits.reverse
  unfold prune
  rw [if_pos (by simp)]
  simp only [String.toList_ofList, List.reverse_append, List.reverse_cons, List.reverse_replicate,
    List.append_assoc, List.singleton_append]
  rw [List.dropWhile_append_of_pos (by simp)]
  cases last : kept.reverse with
  | nil =>
      obtain rfl := List.reverse_eq_nil_iff.mp last
      simp [point, dropWhile_point wholeDigits.reverse]
  | cons c rest =>
      rw [last] at reversed digits
      have nonzero : (c == '0') = false := by
        have first := List.head_dropWhile_not (· == '0') (l := c :: rest) (by simp [reversed])
        simpa [reversed] using first
      have noPoint := digit_ne_point (digits c List.mem_cons_self)
      have nonempty : kept ≠ [] := by
        intro equal
        subst equal
        contradiction
      have same : rest.reverse ++ [c] = kept := by
        rw [← List.reverse_cons, ← last, List.reverse_reverse]
      rw [point_eq_cons nonempty, ← same]
      simp [nonzero, noPoint]

def Literal.prune (literal : Literal) : Literal :=
  { literal with
    decimals := literal.decimals.rdropWhile (· == '0')
    decimals_digits := fun c member =>
      literal.decimals_digits c ((List.rdropWhile_prefix (· == '0') _).subset member) }

theorem rtakeWhile_zeros (decimals : List Char) :
    decimals.rtakeWhile (· == '0') =
      List.replicate (decimals.rtakeWhile (· == '0')).length '0' := by
  apply List.eq_replicate_iff.mpr
  refine ⟨rfl, fun c member => ?_⟩
  have all := List.all_takeWhile (p := (· == '0')) (l := decimals.reverse)
  simpa using List.all_eq_true.mp all c (by simpa [List.rtakeWhile] using member)

namespace Literal

variable {literal : Literal}

def endingZeros (literal : Literal) : Nat := (literal.decimals.rtakeWhile (· == '0')).length

theorem decimals_prune (literal : Literal) :
    literal.prune.decimals ++ List.replicate literal.endingZeros '0' = literal.decimals := by
  rw [endingZeros, ← rtakeWhile_zeros]
  exact List.rdropWhile_append_rtakeWhile

theorem text_prune (plain : literal.power = none) (nonempty : literal.decimals ≠ []) :
    Decimal.prune (String.ofList literal.text) = String.ofList literal.prune.text := by
  have written : literal.text =
      literal.whole ++ '.' ::
        (literal.prune.decimals ++ List.replicate literal.endingZeros '0') := by
    rw [decimals_prune]
    simp [text, mantissa, suffix, plain, point_eq_cons nonempty]
  have pruned : literal.prune.text = literal.whole ++ point literal.prune.decimals := by
    simp [text, mantissa, suffix, prune, plain]
  rw [written, pruned]
  exact prune_text _ literal.whole_digits literal.prune.decimals_digits
    (List.rdropWhile_idempotent _ _)

theorem digits_prune (literal : Literal) :
    literal.digits = literal.prune.digits * 10 ^ literal.endingZeros := by
  unfold digits
  rw [← decimals_prune literal, ← List.append_assoc, Nat.ofDigitChars_append,
    Nat.ofDigitChars_replicate_zero, Nat.mul_comm]
  rfl

theorem length_prune (literal : Literal) :
    literal.decimals.length = literal.prune.decimals.length + literal.endingZeros := by
  have same := congrArg List.length (decimals_prune literal)
  simpa using same.symm

theorem word_prune (plain : literal.power = none) : literal.prune.word = literal.word := by
  have shorter : literal.prune.power = none := plain
  rw [word_plain plain, word_plain shorter, digits_prune literal, length_prune literal,
    Nat.pow_add, nearestWord_mul_right _ _ (Numeral.pow_pos_ten _)]

end Literal

def scientificLiteral (number : Scientific) : Literal :=
  { placedLiteral number.digits number.decimals with
    power := some (decide (number.exponent < 0), Nat.toDigits 10 number.exponent.natAbs)
    power_digits := by
      intro negative digits written
      cases written
      exact ⟨Nat.toDigits_ne_nil, allDigits_toDigits _⟩ }

theorem suffix_scientificLiteral (number : Scientific) :
    (scientificLiteral number).suffix =
      'e' :: (if number.exponent < 0 then '-' else '+') ::
        Nat.toDigits 10 number.exponent.natAbs := by
  simp [Literal.suffix, scientificLiteral]

theorem text_scientificLiteral (number : Scientific) :
    String.ofList (scientificLiteral number).text = number.text := by
  have mantissa : (scientificLiteral number).mantissa = placed number.digits number.decimals :=
    mantissa_placedLiteral _ _
  rw [Literal.text, mantissa, Scientific.text, String.ofList_append, String.append_assoc]
  congr 1
  rw [suffix_scientificLiteral]
  cases number.exponent with
  | ofNat exponent =>
      have sign : ¬ ((exponent : Int) < 0) := Int.not_lt.mpr (Int.natCast_nonneg exponent)
      simp [signedExponent, String.ofList_cons, sign]
  | negSucc exponent => simp [signedExponent, String.ofList_cons]

theorem digits_scientificLiteral (number : Scientific) :
    (scientificLiteral number).digits = number.digits :=
  ofDigitChars_placed _ _

theorem exponent_scientificLiteral (number : Scientific) :
    (scientificLiteral number).exponent = number.exponent - number.decimals := by
  simp only [Literal.exponent, scientificLiteral, placedLiteral, length_digitsOfWidth,
    Nat.ofDigitChars_ten_toDigits]
  by_cases negative : number.exponent < 0
  · simp only [negative, decide_true, if_true]
    omega
  · simp only [negative, decide_false, Bool.false_eq_true, if_false]
    omega

end ComplexCalculator.Decimal
