import Mathlib
import ComplexCalculator.Evaluation
import ComplexCalculator.Proofs.Grammar.Cancellation
import ComplexCalculator.Proofs.Lexeme.Signs

/-!
Two signs side by side.

Two adjacent signs are read as one sign. With a space between them they are read apart: the first
continues or begins a sum, and the second is the sign of what follows. In exact arithmetic both
readings are the same number, except in three places. No plus sign is accepted before a factor; a
sign behind a number and `e` belongs to a literal when whole digits follow it; and a minus sign that
has become part of a plus does not negate the base of a power.
-/

namespace ComplexCalculator

open Grammar

/-- A text with two signs side by side somewhere; `true` is the minus sign. -/
structure AdjacentSigns where
  before : String
  first : Bool
  second : Bool
  behind : String

namespace AdjacentSigns

variable (place : AdjacentSigns)

def text : String :=
  String.ofList (place.before.toList ++ signChar place.first :: signChar place.second ::
    place.behind.toList)

/-- The text with a space between the two signs. -/
def parted : String :=
  String.ofList (place.before.toList ++ signChar place.first :: ' ' :: signChar place.second ::
    place.behind.toList)

/-- The tokens before the two signs, and before any signs that directly precede them. -/
def front : List Token := (Token.ofText place.before).rdropWhile Token.isSign

/-- The two signs, each with what directly precedes or follows it of other signs, and the tokens
behind them, up to the parenthesis that the reader closes an expression with. -/
def signs : Signs where
  first := (Token.ofText place.before).getLast? == some .minus ^^ place.first
  second := place.second ^^ (Token.ofText place.behind).head? == some .minus
  back := (Token.ofText place.behind).dropWhile Token.isSign ++ [.closing]

/-- The tokens, once a sign that precedes the two is taken up by the first of them. -/
theorem tokens_ofText (negative : Bool) (rest : List Char) :
    Token.ofText (String.ofList (place.before.toList ++ signChar negative :: rest)) =
      place.front ++ Token.cut
        (signChar ((Token.ofText place.before).getLast? == some .minus ^^ negative) ::
          Lexeme.prepare rest) := by
  rw [Token.ofText_eq_cut, String.toList_ofList, Lexeme.prepare_sign, Token.cut_before_sign,
    ← Token.ofText_eq_cut]
  rfl

theorem tokens_text :
    Token.ofText place.text ++ [.closing] = place.front ++ place.signs.folded := by
  rw [text, tokens_ofText, Lexeme.prepare_sign_cons, Token.cut_two_signs, ← Token.ofText_eq_cut]
  simp only [Signs.folded, signs, List.append_assoc, List.cons_append]

theorem tokens_parted :
    Token.ofText place.parted ++ [.closing] = place.front ++ place.signs.parted := by
  have space (negative : Bool) (text : List Char) : Token.cut (signChar negative :: ' ' :: text) =
      Token.ofSign negative :: .space :: Token.cut text := by
    rw [Token.cut_behind_sign, Token.cut_space]
    cases negative <;> rfl
  rw [parted, tokens_ofText, Lexeme.prepare_space_sign, space, Token.cut_behind_sign,
    ← Token.ofText_eq_cut]
  simp only [Signs.parted, signs, List.append_assoc, List.cons_append]

/-- If the text has a value with the space, it is an expression without it, and the two expressions
are the same number in exact arithmetic. -/
def KeepsMeaning : Prop :=
  ∀ value, Complex.ofText place.parted = .ok value →
    (∀ error, Complex.ofText place.text ≠ .error (.malformed error)) ∧
      ∃ tree tree', Expr.parse (Token.ofText place.text) = .ok tree ∧
        Expr.parse (Token.ofText place.parted) = .ok tree' ∧
        tree.eval Exact.semantics = tree'.eval Exact.semantics

theorem keepsMeaning_of_foldable (foldable : place.signs.Foldable place.front) :
    place.KeepsMeaning := by
  intro value evaluated
  rw [Complex.ofText, Complex.ofTokens] at evaluated
  obtain ⟨tree', parted, -⟩ := Expr.exists_tree evaluated
  -- without rounding no operation fails, so the expression has an exact value
  obtain ⟨exact', meaning'⟩ : ∃ exact', tree'.eval Exact.semantics = .ok exact' := by
    cases tree'.eval Exact.semantics with
    | ok exact' => exact ⟨exact', rfl⟩
    | error failure => exact failure.elim
  have readParted : parse Exact.semantics (Token.ofText place.parted) = .ok exact' := by
    rw [Expr.parse_of_tree parted, meaning']
    rfl
  have folds : place.signs.Folds (Token.ofText place.parted ++ [.closing])
      (Token.ofText place.text ++ [.closing]) := by
    rw [tokens_parted, tokens_text]
    exact foldable.folds
  have readText := parse_folds foldable.turns folds readParted
  obtain ⟨tree, whole, meaning⟩ := Expr.exists_tree readText
  refine ⟨fun error malformed => ?_, tree, tree', whole, parted, meaning.trans meaning'.symm⟩
  rw [Complex.ofText, Complex.ofTokens, Expr.parse_of_tree whole] at malformed
  cases result : tree.eval Complex.semantics <;> rw [result] at malformed <;> cases malformed

/-- `2*(5--3j)`, where two minus signs become a plus in the parentheses. -/
theorem keepsMeaning_of_foldable_parenthesis :
    Complex.ofText "2*(5- -3j)" = .ok ⟨10, 6⟩ ∧ KeepsMeaning ⟨"2*(5", true, true, "3j)"⟩ := by
  have front : front ⟨"2*(5", true, true, "3j)"⟩ = [.number "2", .star, .opening, .number "5"] := by
    decide +kernel
  have back : (signs ⟨"2*(5", true, true, "3j)"⟩).back =
      [.number "3", .imaginaryUnit, .closing, .closing] := by
    decide +kernel
  have factors : read Expr.builder .atom [.number "3", .imaginaryUnit, .closing, .closing] =
      .ok (.mul (.natural 3) .imaginaryUnit, [.closing, .closing]) := by
    decide +kernel
  refine ⟨by decide +kernel, keepsMeaning_of_foldable _ ⟨fun awaits => ?literal, ?operand, ?power⟩⟩
  case literal =>
    rw [front] at awaits
    cases awaits.getLast?
  case operand =>
    rintro - last found
    rw [front] at found
    cases found
    simp [AwaitsOperand]
  case power =>
    rw [back]
    rintro - (⟨atom, caret⟩ | ⟨atom, goesOn, -⟩)
    · rw [factors] at atom
      cases atom
      cases caret
    · rw [factors] at atom
      cases atom
      cases goesOn

/-- The three places: `2*--3` is malformed, `1e++3` is a thousand, and `3--2^2` adds the square that
`3- -2^2` subtracts. -/
theorem not_keepsMeaning :
    ¬ KeepsMeaning ⟨"2*", true, true, "3"⟩ ∧ ¬ KeepsMeaning ⟨"1e", false, false, "3"⟩ ∧
      ∃ tree tree', Expr.parse (Token.ofText "3--2^2") = .ok tree ∧
        Expr.parse (Token.ofText "3- -2^2") = .ok tree' ∧
        tree.eval Exact.semantics = .ok (some 7) ∧
        tree'.eval Exact.semantics = .ok (some (-1)) := by
  refine ⟨fun means => ?operand, fun means => ?literal, ?power⟩
  case operand =>
    have evaluated : Complex.ofText (parted ⟨"2*", true, true, "3"⟩) = .ok ⟨6, 0⟩ := by
      decide +kernel
    have refused : Complex.ofText (text ⟨"2*", true, true, "3"⟩) =
        .error (.malformed (.unexpected "+" [.number "3", .closing])) := by
      decide +kernel
    exact (means _ evaluated).1 _ refused
  case literal =>
    have evaluated : Complex.ofText (parted ⟨"1e", false, false, "3"⟩) =
        .ok ⟨Float.ofBits 0x4016df85458a2bb4, 0⟩ := by
      decide +kernel
    have literal : Expr.parse (Token.ofText (text ⟨"1e", false, false, "3"⟩)) =
        .ok (.number (.finite false 1 3)) := by
      decide +kernel
    have sum : Expr.parse (Token.ofText (parted ⟨"1e", false, false, "3"⟩)) =
        .ok (.add (.mul (.natural 1) .euler) (.natural 3)) := by
      decide +kernel
    obtain ⟨tree, tree', whole, parts, same⟩ := (means _ evaluated).2
    obtain rfl := Except.ok.inj (literal.symm.trans whole)
    obtain rfl := Except.ok.inj (sum.symm.trans parts)
    have value : (Expr.number (.finite false 1 3)).eval Exact.semantics = .ok (some 1000) := by
      norm_num [Expr.eval, Exact.semantics, Exact.ofNumeral]
    have euler : Expr.euler.eval Exact.semantics = .ok (some (1 : ℂ).exp) := rfl
    have value' := Expr.eval_add (Expr.eval_mul (Expr.eval_natural 1) euler) (Expr.eval_natural 3)
    rw [value, value'] at same
    have real := congrArg (fun z : Exact => z.elim 0 (·.re)) (Except.ok.inj same)
    have bound := Real.exp_one_lt_d9
    norm_num [Exact.mul, Exact.add, Complex.exp_re] at real
    linarith
  case power =>
    have square (a : ℂ) (nonzero : a ≠ 0) : Exact.pow (some a) (some 2) = some (a ^ 2) :=
      Exact.pow_natCast nonzero 2
    have two : (Expr.natural 2).eval Exact.semantics = .ok (some 2) := Expr.eval_natural 2
    have three : (Expr.natural 3).eval Exact.semantics = .ok (some 3) := Expr.eval_natural 3
    refine ⟨.add (.natural 3) (.pow (.natural 2) (.natural 2)),
      .sub (.natural 3) (.pow (.neg (.natural 2)) (.natural 2)),
      by decide +kernel, by decide +kernel, ?_, ?_⟩
    · rw [Expr.eval_add three (Expr.eval_pow two two), square 2 two_ne_zero]
      norm_num [Exact.add]
    · have negated : Exact.neg (some 2) = some (-2) := rfl
      rw [Expr.eval_sub three (Expr.eval_pow (Expr.eval_neg two) two), negated,
        square (-2) (neg_ne_zero.mpr two_ne_zero)]
      norm_num [Exact.sub]

end AdjacentSigns

end ComplexCalculator
