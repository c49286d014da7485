import ComplexCalculator.Proofs.Grammar.Induction
import ComplexCalculator.Proofs.Lexeme.Written

namespace ComplexCalculator.Grammar

open Decimal (Literal Numeral)

variable {V ε : Type} {semantics : Semantics V ε} {tokens rest : List Token} {value left result : V}

/-- What may stand behind a term: a sign, or the end of the group. -/
inductive EndsTerm : List Token → Prop where
  | plus (rest : List Token) : EndsTerm (.plus :: rest)
  | minus (rest : List Token) : EndsTerm (.minus :: rest)
  | closing (rest : List Token) : EndsTerm (.closing :: rest)

/-- Tokens that are read as one atom with this value, up to their end. -/
structure IsTerm (semantics : Semantics V ε) (tokens : List Token) (value : V) : Prop where
  begins : atEnd tokens = false
  reads : ∀ rest, EndsTerm rest → read semantics .atom (tokens ++ rest) = .ok (value, rest)

/-- Tokens that are one atom with this value wherever a value ends behind them. -/
structure IsAtom (semantics : Semantics V ε) (tokens : List Token) (value : V) : Prop where
  begins : atEnd tokens = false
  reads : ∀ rest, atEnd rest = true →
    read semantics .atom (tokens ++ rest) = .ok (value, rest)

section Begins

variable (begins : atEnd tokens = false)

include begins

theorem begins_append (rest : List Token) : atEnd (tokens ++ rest) = false := by
  cases tokens with
  | nil => contradiction
  | cons token more => exact begins

theorem read_sum_begins :
    read semantics .sum tokens =
      (read semantics .product tokens).andThen fun left => read semantics (.sumTail left) := by
  rw [read_eq_step]
  cases tokens with
  | nil => contradiction
  | cons token rest => cases token <;> first | contradiction | rfl

theorem read_group_begins :
    read semantics .group tokens = (read semantics .sum tokens).andThen closeGroup := by
  rw [read_eq_step]
  cases tokens with
  | nil => contradiction
  | cons token rest => cases token <;> first | contradiction | rfl

theorem read_glued_begins (value : V) :
    read semantics (.glued value) tokens =
      (read semantics .atom tokens).andThen fun factor =>
        compute (semantics.mul value factor) := by
  rw [read_eq_step, step, begins]
  rfl

end Begins

theorem EndsTerm.atEnd (ends : EndsTerm rest) : atEnd rest = true := by
  cases ends <;> rfl

theorem IsAtom.isTerm (atom : IsAtom semantics tokens value) : IsTerm semantics tokens value where
  begins := atom.begins
  reads rest ends := atom.reads rest ends.atEnd

theorem read_glued_ends (ends : EndsTerm rest) :
    read semantics (.glued value) rest = .ok (value, rest) :=
  read_glued_of_atEnd ends.atEnd

theorem read_powerTail_ends (ends : EndsTerm rest) :
    read semantics (.powerTail value) rest = .ok (value, rest) := by
  rw [read_eq_step]
  cases ends <;> rfl

theorem read_productTail_ends (ends : EndsTerm rest) :
    read semantics (.productTail value) rest = .ok (value, rest) := by
  rw [read_eq_step]
  cases ends <;> rfl

theorem read_sumTail_closing :
    read semantics (.sumTail left) (.closing :: rest) = .ok (left, .closing :: rest) := by
  rw [read_eq_step]
  rfl

namespace IsTerm

theorem product (term : IsTerm semantics tokens value) (ends : EndsTerm rest) :
    read semantics .product (tokens ++ rest) = .ok (value, rest) := by
  have atom := term.reads rest ends
  have power : read semantics .power (tokens ++ rest) = .ok (value, rest) := by
    rw [read_eq_step, step, atom]
    exact read_powerTail_ends ends
  rw [read_eq_step, step, power]
  exact read_productTail_ends ends

theorem sum (term : IsTerm semantics tokens value) (ends : EndsTerm rest) :
    read semantics .sum (tokens ++ rest) = read semantics (.sumTail value) rest := by
  rw [read_sum_begins (begins_append term.begins rest), term.product ends]
  rfl

theorem sumTail_minus (term : IsTerm semantics tokens value) (ends : EndsTerm rest)
    (difference : semantics.sub left value = .ok result) :
    read semantics (.sumTail left) (.minus :: (tokens ++ rest)) =
      read semantics (.sumTail result) rest := by
  rw [read_eq_step, step]
  simp only [skipSpaces]
  rw [term.product ends]
  simp only [Reading.andThen, compute, difference]

theorem sumTail_plus (term : IsTerm semantics tokens value)
    (sum : semantics.add left value = .ok result) :
    read semantics (.sumTail left) (.plus :: (tokens ++ .closing :: rest)) =
      .ok (result, .closing :: rest) := by
  rw [read_eq_step, step]
  simp only [skipSpaces]
  rw [term.sum (.closing rest), read_sumTail_closing]
  simp only [Reading.andThen, compute, sum]

theorem group (term : IsTerm semantics tokens value) (ends : EndsTerm rest) :
    read semantics .group (tokens ++ rest) =
      (read semantics (.sumTail value) rest).andThen closeGroup := by
  rw [read_group_begins (begins_append term.begins rest), term.sum ends]

theorem group_minus (term : IsTerm semantics tokens value) (ends : EndsTerm rest)
    (difference : semantics.sub semantics.zero value = .ok result) :
    read semantics .group (.minus :: (tokens ++ rest)) =
      (read semantics (.sumTail result) rest).andThen closeGroup := by
  rw [read_eq_step, step]
  simp only [skipSpacesAndPluses]
  rw [term.sumTail_minus ends difference]

end IsTerm

theorem spelling_plain (text : String) (ends : ∀ more, rest ≠ .euler :: more) :
    spelling text rest = (text, rest) := by
  unfold spelling
  split
  · exact absurd rfl (ends _)
  · exact absurd rfl (ends _)
  · rfl

theorem spelling_exponent (text : String) (negative : Bool) {digits : List Char}
    (all : Decimal.AllDigits digits) :
    spelling text (.euler :: Token.ofSign negative :: .number (String.ofList digits) :: rest) =
      (text ++ String.ofList ('e' :: (if negative then '-' else '+') :: digits), rest) := by
  have every : digits.all Char.isDigit = true := List.all_eq_true.mpr all
  have plus : "e+" ++ String.ofList digits = String.ofList ('e' :: '+' :: digits) := by
    rw [← String.toList_inj]
    simp
  have minus : "e-" ++ String.ofList digits = String.ofList ('e' :: '-' :: digits) := by
    rw [← String.toList_inj]
    simp
  cases negative with
  | false => simp [spelling, Token.ofSign, every, String.append_assoc, plus]
  | true => simp [spelling, Token.ofSign, every, String.append_assoc, minus]

theorem literal_tokens (literal : Literal) (ends : ∀ more, rest ≠ .euler :: more) :
    ∃ more, literal.tokens = .number (String.ofList literal.mantissa) :: more ∧
      Grammar.literal (String.ofList literal.mantissa) (more ++ rest) =
        .ok (.finite false literal.digits literal.exponent, rest) := by
  refine ⟨_, rfl, ?_⟩
  have numeral := literal.read?_text
  unfold Literal.text Literal.suffix at numeral
  cases written : literal.power with
  | none =>
      simp only [written, List.append_nil] at numeral
      simp only [Grammar.literal, List.nil_append, spelling_plain _ ends, String.toList_ofList,
        numeral]
  | some power =>
      obtain ⟨negative, digits⟩ := power
      obtain ⟨-, all⟩ := literal.power_digits negative digits written
      simp only [written] at numeral
      simp only [Grammar.literal, List.cons_append, List.nil_append, spelling_exponent _ _ all,
        String.toList_append, String.toList_ofList, numeral]

theorem ne_euler_of_atEnd (ends : atEnd rest = true) (more : List Token) :
    rest ≠ .euler :: more := by
  rintro rfl
  contradiction

theorem isAtom_literal (literal : Literal)
    (number : semantics.number (.finite false literal.digits literal.exponent) = .ok value) :
    IsAtom semantics literal.tokens value where
  begins := rfl
  reads := by
    intro rest ends
    obtain ⟨more, tokens, reads⟩ := literal_tokens literal (ne_euler_of_atEnd ends)
    rw [tokens, read_eq_step, step]
    simp only [List.cons_append, skipSpaces, reads, number, compute, Reading.andThen]
    exact read_glued_of_atEnd ends

theorem isTerm_literal (literal : Literal)
    (number : semantics.number (.finite false literal.digits literal.exponent) = .ok value) :
    IsTerm semantics literal.tokens value :=
  (isAtom_literal literal number).isTerm

/-- A literal with a factor glued to it. -/
theorem isTerm_glued (literal : Literal) {factor : V}
    (number : semantics.number (.finite false literal.digits literal.exponent) = .ok value)
    (glued : IsTerm semantics tokens factor) (notEuler : ∀ more, tokens ≠ .euler :: more)
    (product : semantics.mul value factor = .ok result) :
    IsTerm semantics (literal.tokens ++ tokens) result where
  begins := rfl
  reads := by
    intro rest ends
    have begins := begins_append glued.begins rest
    have behind : ∀ more, tokens ++ rest ≠ .euler :: more := by
      cases tokens with
      | nil => exact absurd glued.begins (by decide)
      | cons token others =>
          intro more equal
          exact notEuler others (by rw [(List.cons.inj equal).1])
    obtain ⟨more, spelled, reads⟩ := literal_tokens literal behind
    have last : read semantics (.glued value) (tokens ++ rest) = .ok (result, rest) := by
      rw [read_glued_begins begins, glued.reads rest ends]
      simp only [Reading.andThen, compute, product]
    rw [spelled, List.append_assoc, read_eq_step, step]
    simp only [List.cons_append, skipSpaces, reads, number, compute, Reading.andThen]
    exact last

theorem isAtom_imaginaryUnit : IsAtom semantics [.imaginaryUnit] semantics.imaginaryUnit where
  begins := rfl
  reads := by
    intro rest ends
    rw [List.singleton_append, read_eq_step, step]
    exact read_glued_of_atEnd ends

theorem isAtom_euler : IsAtom semantics [.euler] semantics.euler where
  begins := rfl
  reads := by
    intro rest ends
    rw [List.singleton_append, read_eq_step, step]
    exact read_glued_of_atEnd ends

/-- The imaginary unit with a factor glued to it. -/
theorem isTerm_unit_glued {factor : V} (glued : IsTerm semantics tokens factor)
    (product : semantics.mul semantics.imaginaryUnit factor = .ok result) :
    IsTerm semantics (.imaginaryUnit :: tokens) result where
  begins := rfl
  reads := by
    intro rest ends
    have last : read semantics (.glued semantics.imaginaryUnit) (tokens ++ rest) =
        .ok (result, rest) := by
      rw [read_glued_begins (begins_append glued.begins rest), glued.reads rest ends]
      simp only [Reading.andThen, compute, product]
    rw [List.cons_append, read_eq_step, step]
    exact last

/-- The exponential of a group. -/
theorem isTerm_exp (group : ∀ rest, EndsTerm rest →
      read semantics .group (tokens ++ .closing :: rest) = .ok (value, rest))
    (exponential : semantics.exp value = .ok result) :
    IsTerm semantics (.exp :: .opening :: (tokens ++ [.closing])) result where
  begins := rfl
  reads := by
    intro rest ends
    have tail : tokens ++ [Token.closing] ++ rest = tokens ++ .closing :: rest := by
      rw [List.append_assoc, List.singleton_append]
    have argument : read semantics .atom (.opening :: (tokens ++ .closing :: rest)) =
        .ok (value, rest) := by
      rw [read_eq_step, step]
      simp only [skipSpaces, group rest ends, Reading.andThen, read_glued_ends ends]
    rw [List.cons_append, List.cons_append, tail, read_eq_step, step]
    simp only [skipSpaces, argument, Reading.andThen, compute, exponential]

theorem isTerm_imaginary (literal : Literal)
    (number : semantics.number (.finite false literal.digits literal.exponent) = .ok value)
    (product : semantics.mul value semantics.imaginaryUnit = .ok result) :
    IsTerm semantics (literal.tokens ++ [.imaginaryUnit]) result :=
  isTerm_glued literal number isAtom_imaginaryUnit.isTerm nofun product

/-- Tokens whose first atom fails. -/
structure FailsTerm (semantics : Semantics V ε) (tokens : List Token) (failure : Failure ε) :
    Prop where
  begins : atEnd tokens = false
  fails : read semantics .atom tokens = .error failure

namespace FailsTerm

variable {failure : Failure ε}

theorem product (term : FailsTerm semantics tokens failure) :
    read semantics .product tokens = .error failure := by
  have power : read semantics .power tokens = .error failure := by
    rw [read_eq_step, step, term.fails]
    rfl
  rw [read_eq_step, step, power]
  rfl

theorem sum (term : FailsTerm semantics tokens failure) :
    read semantics .sum tokens = .error failure := by
  rw [read_sum_begins term.begins, term.product]
  rfl

theorem sumTail_sign (term : FailsTerm semantics tokens failure) (left : V) (negative : Bool) :
    read semantics (.sumTail left) (Token.ofSign negative :: tokens) = .error failure := by
  rw [read_eq_step]
  cases negative with
  | false =>
      simp only [Token.ofSign, Bool.false_eq_true, if_false, step, skipSpaces, term.sum]
      rfl
  | true =>
      simp only [Token.ofSign, if_true, step, skipSpaces, term.product]
      rfl

theorem group (term : FailsTerm semantics tokens failure) :
    read semantics .group tokens = .error failure := by
  rw [read_group_begins term.begins, term.sum]
  rfl

theorem parse (term : FailsTerm semantics (tokens ++ [.closing]) failure) :
    Grammar.parse semantics tokens = .error failure := by
  rw [Grammar.parse, term.group]

theorem group_minus (term : FailsTerm semantics tokens failure) :
    read semantics .group (.minus :: tokens) = .error failure := by
  rw [read_eq_step, step]
  simp only [skipSpacesAndPluses]
  exact congrArg (Reading.andThen · closeGroup) (term.sumTail_sign semantics.zero true)

theorem parse_minus (term : FailsTerm semantics (tokens ++ [.closing]) failure) :
    Grammar.parse semantics (.minus :: tokens) = .error failure := by
  rw [Grammar.parse, List.cons_append, term.group_minus]

end FailsTerm

/-- A word that the grammar does not know cannot begin an expression. -/
theorem failsTerm_unknown (text : String) (rest : List Token) :
    FailsTerm semantics (.unknown text :: rest) (.malformed (.unexpected text rest)) where
  begins := rfl
  fails := by
    rw [read_eq_step]
    rfl

theorem FailsTerm.unit {failure : Failure ε} (term : FailsTerm semantics tokens failure) :
    FailsTerm semantics (.imaginaryUnit :: tokens) failure where
  begins := rfl
  fails := by
    have glued : read semantics (.glued semantics.imaginaryUnit) tokens = .error failure := by
      rw [read_glued_begins term.begins, term.fails]
      rfl
    rw [read_eq_step, step]
    exact glued

theorem failsTerm_literal (literal : Literal) {error : ε}
    (number : semantics.number (.finite false literal.digits literal.exponent) = .error error)
    (ends : ∀ more, rest ≠ .euler :: more) :
    FailsTerm semantics (literal.tokens ++ rest) (.arithmetic error) where
  begins := rfl
  fails := by
    obtain ⟨more, tokens, reads⟩ := literal_tokens literal ends
    rw [tokens, read_eq_step, step]
    simp only [List.cons_append, skipSpaces, reads, number, compute, Reading.andThen]

end ComplexCalculator.Grammar
