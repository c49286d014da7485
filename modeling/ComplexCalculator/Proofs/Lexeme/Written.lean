import ComplexCalculator.Token
import ComplexCalculator.Proofs.Decimal.Literal
import ComplexCalculator.Proofs.Lexeme.Passes

namespace ComplexCalculator

open Decimal (Literal AllDigits point IsSpelled takeWhile_digits dropWhile_digits digit_ne_point)

namespace Lexeme

def isWritten (c : Char) : Bool :=
  c.isDigit || ['.', '+', '-', 'e', 'j', '^', '(', ')', 'π'].contains c

def Written (text : List Char) : Prop := ∀ c ∈ text, isWritten c = true

theorem Written.append {left right : List Char} (first : Written left) (second : Written right) :
    Written (left ++ right) := by
  intro c member
  rcases List.mem_append.mp member with member | member
  · exact first c member
  · exact second c member

theorem Written.cons {c : Char} {text : List Char} (first : isWritten c = true)
    (rest : Written text) : Written (c :: text) := by
  intro d member
  rcases List.mem_cons.mp member with rfl | member
  · exact first
  · exact rest d member

theorem written_of_digits {digits : List Char} (all : AllDigits digits) : Written digits := by
  intro c member
  simp [isWritten, all c member]

/-- A character that the preparation keeps. -/
structure Plain (c : Char) : Prop where
  lower : ∀ before after, Text.lowercaseAt before c after = [c]
  kept : (c != unitSeparator) = true
  unfolded : isFolded c = false

theorem plain_ascii {c : Char} (ascii : c.toNat < 128) (lower : c.toLower = c)
    (kept : (c != unitSeparator) = true) (unfolded : isFolded c = false) : Plain c where
  lower before after := by rw [Text.lowercaseAt, if_pos ascii, lower]
  kept := kept
  unfolded := unfolded

theorem plain_digit {c : Char} (digit : c.isDigit = true) : Plain c := by
  have range : 48 ≤ c.toNat ∧ c.toNat ≤ 57 := by
    simp only [Char.isDigit, Bool.and_eq_true, decide_eq_true_eq] at digit
    exact digit
  rw [← Char.ofNat_toNat c]
  generalize c.toNat = code at range
  obtain ⟨low, high⟩ := range
  interval_cases code <;> exact plain_ascii (by decide) (by decide) (by decide) (by decide)

theorem plain_pi : Plain 'π' where
  lower before after := by
    have lower : Text.lowercaseChar 'π' = 'π' := by decide +kernel
    rw [Text.lowercaseAt, if_neg (by decide), if_neg (by decide), if_neg (by decide), lower]
  kept := by decide
  unfolded := by decide

theorem plain_written {c : Char} (written : isWritten c = true) : Plain c := by
  simp only [isWritten, Bool.or_eq_true, List.contains_iff_mem, List.mem_cons, List.not_mem_nil,
    or_false] at written
  rcases written with digit | rfl | rfl | rfl | rfl | rfl | rfl | rfl | rfl | rfl
  case inl => exact plain_digit digit
  case inr.inr.inr.inr.inr.inr.inr.inr.inr => exact plain_pi
  all_goals exact plain_ascii (by decide) (by decide) (by decide) (by decide)

theorem lowercaseFrom_plain {text : List Char}
    (lower : ∀ c ∈ text, ∀ before after, Text.lowercaseAt before c after = [c])
    (before : List Char) : Text.lowercaseFrom before text = text := by
  induction text generalizing before with
  | nil => rfl
  | cons c rest ih =>
      have first := lower c List.mem_cons_self before rest
      have others := ih (fun d member => lower d (List.mem_cons_of_mem c member)) (c :: before)
      rw [Text.lowercaseFrom, first, others, List.singleton_append]

/-- Only the white space of a text in lower case is to be prepared. -/
theorem prepare_of_lower {text : List Char}
    (lower : ∀ c ∈ text, ∀ before after, Text.lowercaseAt before c after = [c])
    (kept : ∀ c ∈ text, (c != unitSeparator) = true) : prepare text = foldSpaces false text := by
  rw [prepare, Text.lowercase, lowercaseFrom_plain lower, List.filter_eq_self.mpr kept]

theorem foldSpaces_of_none {text : List Char} (none : ∀ c ∈ text, isFolded c = false) :
    foldSpaces false text = text := by
  induction text with
  | nil => rfl
  | cons c rest ih =>
      have first := none c List.mem_cons_self
      simp [foldSpaces, first, ih fun d member => none d (List.mem_cons_of_mem c member)]

theorem prepare_written {text : List Char} (written : Written text) : prepare text = text := by
  have plain : ∀ c ∈ text, Plain c := fun c member => plain_written (written c member)
  rw [prepare_of_lower (fun c member => (plain c member).lower) fun c member =>
    (plain c member).kept]
  exact foldSpaces_of_none fun c member => (plain c member).unfolded

theorem ofText_written {text : String} (written : Written text.toList) :
    ofText text = scan wordPatterns text.toList := by
  rw [ofText, prepare_written written, join_eq_scan]

variable {c : Char} {rest : List Char}

def EndsNumber (rest : List Char) : Prop :=
  ∀ c ∈ rest.head?, c.isDigit = false ∧ c ≠ '.' ∧ c ≠ ','

theorem next_digit (digit : c.isDigit = true) : next wordPatterns c rest = number c rest := by
  simp [next, wordPatterns, Pattern.fits, numberPattern, digit]

theorem number_spelled {whole decimals : List Char} (c : Char) (wholeDigits : AllDigits whole)
    (decimalsDigits : AllDigits decimals) (ends : EndsNumber rest) :
    number c (whole ++ point decimals ++ rest) = (c :: whole ++ point decimals, rest) := by
  have stop : ∀ d ∈ rest.head?, d.isDigit = false := fun d first => (ends d first).1
  unfold number
  cases decimals with
  | nil =>
      simp only [point, List.append_nil, takeWhile_digits wholeDigits stop,
        dropWhile_digits wholeDigits stop]
      split
      · rename_i mark _ _
        obtain ⟨-, notPoint, notComma⟩ := ends mark rfl
        simp [notPoint, notComma]
      · rfl
  | cons first more =>
      have firstDigit : first.isDigit = true := decimalsDigits first List.mem_cons_self
      have moreDigits : AllDigits more := fun d member =>
        decimalsDigits d (List.mem_cons_of_mem first member)
      have atPoint : ∀ d ∈ ('.' :: first :: (more ++ rest)).head?, d.isDigit = false := by
        intro d found
        cases found
        rfl
      simp only [point, List.append_assoc, List.cons_append, takeWhile_digits wholeDigits atPoint,
        dropWhile_digits wholeDigits atPoint, takeWhile_digits moreDigits stop,
        dropWhile_digits moreDigits stop]
      simp [firstDigit]

section Following

variable {tail : List Char}

theorem takeWhile_digit_append (ends : EndsNumber tail) (text : List Char) :
    (text ++ tail).takeWhile Char.isDigit = text.takeWhile Char.isDigit ∧
      (text ++ tail).dropWhile Char.isDigit = text.dropWhile Char.isDigit ++ tail := by
  induction text with
  | nil =>
      cases tail with
      | nil => exact ⟨rfl, rfl⟩
      | cons c rest =>
          have stop := (ends c rfl).1
          simp [stop]
  | cons c text ih =>
      obtain ⟨taken, dropped⟩ := ih
      cases digit : c.isDigit <;> simp [digit, taken, dropped]

/-- A number is over where its text ends, unless a digit or a mark follows. -/
theorem number_append (ends : EndsNumber tail) (c : Char) (text : List Char) :
    number c (text ++ tail) = ((number c text).1, (number c text).2 ++ tail) := by
  obtain ⟨taken, dropped⟩ := takeWhile_digit_append ends text
  unfold number
  rw [taken, dropped]
  match text.dropWhile Char.isDigit with
  | [] =>
      match tail, ends with
      | [], _ | [_], _ => rfl
      | mark :: digit :: more, ends =>
          obtain ⟨-, notPoint, notComma⟩ := ends mark rfl
          simp [notPoint, notComma]
  | [mark] =>
      match tail, ends with
      | [], _ => rfl
      | digit :: more, ends => simp [(ends digit rfl).1]
  | mark :: digit :: more =>
      obtain ⟨taken, dropped⟩ := takeWhile_digit_append ends more
      simp only [List.cons_append, taken, dropped]
      split <;> rfl

end Following

theorem scan_spelled {text : List Char} (spelled : IsSpelled text) (ends : EndsNumber rest) :
    scan wordPatterns (text ++ rest) = text :: scan wordPatterns rest := by
  obtain ⟨whole, decimals, nonempty, wholeDigits, decimalsDigits, rfl⟩ := spelled
  obtain ⟨digit, others, rfl⟩ := List.exists_cons_of_ne_nil nonempty
  apply scan_cons_of_next
  have isDigit := wholeDigits digit List.mem_cons_self
  rw [next_digit isDigit]
  exact number_spelled digit (fun d member => wholeDigits d (List.mem_cons_of_mem digit member))
    decimalsDigits ends

theorem scan_sign (negative : Bool) (alone : ∀ d ∈ rest.head?, d ≠ '+' ∧ d ≠ '-') :
    scan wordPatterns ((if negative then '-' else '+') :: rest) =
      [if negative then '-' else '+'] :: scan wordPatterns rest := by
  have stop : rest.takeWhile signRun.inside = [] ∧ rest.dropWhile signRun.inside = rest := by
    cases rest with
    | nil => exact ⟨rfl, rfl⟩
    | cons d others =>
        obtain ⟨notPlus, notMinus⟩ := alone d rfl
        simp [signRun, notPlus, notMinus]
  apply scan_cons_of_next
  cases negative with
  | false =>
      change (signOf ('+' :: rest.takeWhile signRun.inside), rest.dropWhile signRun.inside) = _
      rw [stop.1, stop.2]
      rfl
  | true =>
      change (signOf ('-' :: rest.takeWhile signRun.inside), rest.dropWhile signRun.inside) = _
      rw [stop.1, stop.2]
      rfl

theorem scan_unit (rest : List Char) :
    scan wordPatterns ('j' :: rest) = ['j'] :: scan wordPatterns rest :=
  scan_cons_of_next rfl

theorem scan_exponential (rest : List Char) :
    scan wordPatterns ('e' :: '^' :: rest) = ['e', 'x', 'p'] :: scan wordPatterns rest :=
  scan_cons_of_next rfl

theorem scan_pi (rest : List Char) :
    scan wordPatterns ('π' :: rest) = piDigits :: scan wordPatterns rest :=
  scan_cons_of_next rfl

theorem scan_parenthesis {c : Char} (parenthesis : c = '(' ∨ c = ')') (rest : List Char) :
    scan wordPatterns (c :: rest) = [c] :: scan wordPatterns rest := by
  rcases parenthesis with rfl | rfl <;> exact scan_cons_of_next rfl

theorem scan_exponent_mark (negative : Bool) (rest : List Char) :
    scan wordPatterns ('e' :: (if negative then '-' else '+') :: rest) =
      ['e'] :: scan wordPatterns ((if negative then '-' else '+') :: rest) := by
  apply scan_cons_of_next
  cases negative <;> rfl

end Lexeme

namespace Token

/-- The tokens of a text that is prepared. -/
def cut (text : List Char) : List Token :=
  (Lexeme.join (text.map fun c => [c])).map ofLexeme

theorem ofText_eq_cut (text : String) : ofText text = cut (Lexeme.prepare text.toList) := rfl

theorem cut_eq_scan (text : List Char) :
    cut text = (Lexeme.scan Lexeme.wordPatterns text).map ofLexeme := by
  rw [cut, Lexeme.join_eq_scan]

theorem cut_space (text : List Char) : cut (' ' :: text) = .space :: cut text := by
  rw [cut_eq_scan, Lexeme.scan_cons_plain (by decide), List.map_cons, cut_eq_scan]
  rfl

theorem isNumber_spelled {text : List Char} (spelled : IsSpelled text) : isNumber text = true := by
  have numeral := spelled.read?_isSome
  obtain ⟨whole, decimals, nonempty, wholeDigits, decimalsDigits, rfl⟩ := spelled
  have digitsOnly {digits : List Char} (all : AllDigits digits) :
      digits.all (fun c => c.isDigit || c == '.') = true :=
    List.all_eq_true.mpr fun c member => by simp [all c member]
  have pointOnly : (point decimals).all (fun c => c.isDigit || c == '.') = true := by
    cases decimals with
    | nil => rfl
    | cons digit rest => simpa [point] using digitsOnly decimalsDigits
  obtain ⟨digit, rest, rfl⟩ := List.exists_cons_of_ne_nil nonempty
  simp only [isNumber, numeral, List.all_append, digitsOnly wholeDigits, pointOnly]
  simp [wholeDigits digit List.mem_cons_self]

theorem ofLexeme_spelled {text : List Char} (spelled : IsSpelled text) :
    ofLexeme text = .number (String.ofList text) := by
  have number := isNumber_spelled spelled
  have first : ∀ c ∈ text.head?, c.isDigit = true := by
    obtain ⟨whole, decimals, nonempty, wholeDigits, -, rfl⟩ := spelled
    obtain ⟨digit, rest, rfl⟩ := List.exists_cons_of_ne_nil nonempty
    intro c found
    cases found
    exact wholeDigits _ List.mem_cons_self
  unfold ofLexeme
  split
  case h_13 => rw [if_pos number]
  all_goals exact absurd (first _ rfl) (by decide)

def ofSign (negative : Bool) : Token := if negative then .minus else .plus

def isSign : Token → Bool
  | plus | minus => true
  | _ => false

theorem ofLexeme_sign (negative : Bool) :
    ofLexeme [if negative then '-' else '+'] = ofSign negative := by
  cases negative <;> rfl

end Token

namespace Decimal.Literal

open Lexeme

variable (literal : Literal)

/-- The tokens of a literal: a number, and the exponent in three tokens. -/
def tokens : List Token :=
  .number (String.ofList literal.mantissa) ::
    match literal.power with
    | none => []
    | some (negative, digits) =>
        [.euler, Token.ofSign negative, .number (String.ofList digits)]

theorem isSpelled_digits {digits : List Char} (nonempty : digits ≠ []) (all : AllDigits digits) :
    IsSpelled digits :=
  ⟨digits, [], nonempty, all, nofun, by simp [point]⟩

theorem tokens_scan {rest : List Char} (ends : EndsNumber rest) :
    (scan wordPatterns (literal.text ++ rest)).map Token.ofLexeme =
      literal.tokens ++ (scan wordPatterns rest).map Token.ofLexeme := by
  unfold text suffix tokens
  cases written : literal.power with
  | none =>
      simp only [List.append_nil]
      rw [scan_spelled literal.isSpelled_mantissa ends, List.map_cons,
        Token.ofLexeme_spelled literal.isSpelled_mantissa]
      rfl
  | some power =>
      obtain ⟨negative, digits⟩ := power
      obtain ⟨nonempty, all⟩ := literal.power_digits negative digits written
      have spelled := isSpelled_digits nonempty all
      have atMark : EndsNumber ('e' :: (if negative then '-' else '+') :: (digits ++ rest)) := by
        intro c found
        cases found
        decide
      have alone : ∀ d ∈ (digits ++ rest).head?, d ≠ '+' ∧ d ≠ '-' := by
        obtain ⟨digit, more, rfl⟩ := List.exists_cons_of_ne_nil nonempty
        intro d found
        cases found
        have digit := all _ List.mem_cons_self
        constructor <;> rintro rfl <;> contradiction
      simp only [List.append_assoc, List.cons_append]
      rw [scan_spelled literal.isSpelled_mantissa atMark, scan_exponent_mark,
        scan_sign negative alone, scan_spelled spelled ends]
      simp only [List.map_cons, Token.ofLexeme_spelled literal.isSpelled_mantissa,
        Token.ofLexeme_sign, Token.ofLexeme_spelled spelled]
      rfl

theorem written : Written literal.text := by
  have mantissa : Written literal.mantissa := by
    refine (written_of_digits literal.whole_digits).append ?_
    cases found : literal.decimals with
    | nil => nofun
    | cons digit rest =>
        have all := literal.decimals_digits
        rw [found] at all
        exact (written_of_digits all).cons rfl
  refine mantissa.append ?_
  unfold suffix
  cases found : literal.power with
  | none => nofun
  | some power =>
      obtain ⟨negative, digits⟩ := power
      obtain ⟨-, all⟩ := literal.power_digits negative digits found
      have sign : isWritten (if negative then '-' else '+') = true := by cases negative <;> rfl
      exact ((written_of_digits all).cons sign).cons rfl

end Decimal.Literal

end ComplexCalculator
