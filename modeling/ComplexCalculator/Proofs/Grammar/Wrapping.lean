import Mathlib
import ComplexCalculator.Proofs.Grammar.Acceptance
import ComplexCalculator.Proofs.Grammar.Leading
import ComplexCalculator.Proofs.Lexeme.Stops

namespace ComplexCalculator.Grammar

variable {V ε : Type} {tokens tokens' : List Token}

/-- The same tokens, but for decimals that are in parentheses in the second list. -/
inductive Wrapped : List Token → List Token → Prop where
  | nil : Wrapped [] []
  | token (token : Token) {tokens tokens' : List Token} (behind : Wrapped tokens tokens') :
      Wrapped (token :: tokens) (token :: tokens')
  | decimal {text : String} {tokens tokens' : List Token}
      (marked : text.toList.all Char.isDigit = false) (alone : ¬ BeginsExponent tokens)
      (behind : Wrapped tokens tokens') :
      Wrapped (.number text :: tokens) (.opening :: .number text :: .closing :: tokens')

theorem not_beginsExponent_closing (alone : ¬ BeginsExponent tokens) :
    ¬ BeginsExponent (tokens ++ [.closing]) := by
  rintro ⟨sign, number, rest, split, exponent⟩
  obtain ⟨signs, digits, rfl, whole⟩ := exponent
  match tokens with
  | [] | [_] | [_, _] => rcases signs with rfl | rfl <;> cases split
  | _ :: _ :: _ :: behind =>
      cases split
      exact alone ⟨sign, .number digits, behind, rfl, signs, digits, rfl, whole⟩

namespace Wrapped

theorem refl (tokens : List Token) : Wrapped tokens tokens := by
  induction tokens with
  | nil => exact .nil
  | cons token rest ih => exact .token token ih

theorem append (front : List Token) (wrapped : Wrapped tokens tokens') :
    Wrapped (front ++ tokens) (front ++ tokens') := by
  induction front with
  | nil => exact wrapped
  | cons token front ih => exact .token token ih

theorem closing (wrapped : Wrapped tokens tokens') :
    Wrapped (tokens ++ [.closing]) (tokens' ++ [.closing]) := by
  induction wrapped with
  | nil => exact .refl _
  | token token _ ih => exact .token token ih
  | decimal marked alone _ ih => exact .decimal marked (not_beginsExponent_closing alone) ih

theorem atEnd (wrapped : Wrapped tokens tokens') : atEnd tokens = Grammar.atEnd tokens' := by
  cases wrapped <;> rfl

theorem nil_left (wrapped : Wrapped [] tokens) : tokens = [] := by
  cases wrapped
  rfl

/-- An exponent is the same in both lists, because a decimal is none. -/
theorem exponent {rest : List Token} {sign number : Token} (exponent : sign.IsExponent number)
    (wrapped : Wrapped (.euler :: sign :: number :: rest) tokens') :
    ∃ rest', tokens' = .euler :: sign :: number :: rest' ∧ Wrapped rest rest' := by
  obtain ⟨signs, digits, rfl, whole⟩ := exponent
  cases wrapped with
  | token _ behind =>
      cases behind with
      | decimal => rcases signs with signs | signs <;> cases signs
      | token _ behind =>
          cases behind with
          | token _ behind => exact ⟨_, rfl, behind⟩
          | decimal marked => rw [whole] at marked; contradiction

theorem beginsExponent (wrapped : Wrapped tokens tokens') (begins : BeginsExponent tokens') :
    BeginsExponent tokens := by
  obtain ⟨sign, number, rest, rfl, exponent⟩ := begins
  obtain ⟨signs, digits, rfl, whole⟩ := exponent
  cases wrapped with
  | token _ behind =>
      cases behind with
      | decimal => rcases signs with signs | signs <;> cases signs
      | token _ behind =>
          cases behind with
          | token _ behind => exact ⟨_, _, _, rfl, signs, digits, rfl, whole⟩

theorem spelling (text : String) (wrapped : Wrapped tokens tokens') :
    (spelling text tokens).1 = (Grammar.spelling text tokens').1 ∧
      Wrapped (spelling text tokens).2 (Grammar.spelling text tokens').2 := by
  by_cases begins : BeginsExponent tokens
  · obtain ⟨sign, number, rest, rfl, exponent⟩ := begins
    obtain ⟨rest', rfl, behind⟩ := wrapped.exponent exponent
    obtain ⟨spelled, same⟩ := spelling_of_exponent text exponent
    simpa only [same, true_and] using behind
  · rw [spelling_of_not_begins text begins,
      spelling_of_not_begins text (mt wrapped.beginsExponent begins)]
    exact ⟨rfl, wrapped⟩

theorem start {token : Token} (visible : token ≠ .space) (behind : Wrapped tokens tokens') :
    SameStart Wrapped Wrapped (token :: tokens) (token :: tokens') := by
  cases token with
  | space => exact absurd rfl visible
  | number text => exact .number text (behind.spelling text).1 (behind.spelling text).2
  | _ => exact .token visible (by simp) behind fun _ => behind

theorem skipSpaces (wrapped : Wrapped tokens tokens') :
    SameStart Wrapped Wrapped (skipSpaces tokens) (Grammar.skipSpaces tokens') ∧
      Wrapped (Grammar.skipSpaces tokens) (Grammar.skipSpaces tokens') := by
  induction wrapped with
  | nil => exact ⟨.nil, .nil⟩
  | decimal marked alone behind => exact ⟨.enclosed _ alone behind, .decimal marked alone behind⟩
  | token token behind ih =>
      by_cases space : token = .space
      · subst space
        exact ih
      · rw [skipSpaces_cons _ space, skipSpaces_cons _ space]
        exact ⟨behind.start space, .token token behind⟩

theorem skipSpacesAndPluses (wrapped : Wrapped tokens tokens') :
    SameStart Wrapped Wrapped (skipSpacesAndPluses tokens) (Grammar.skipSpacesAndPluses tokens') ∧
      Wrapped (Grammar.skipSpacesAndPluses tokens) (Grammar.skipSpacesAndPluses tokens') := by
  induction wrapped with
  | nil => exact ⟨.nil, .nil⟩
  | decimal marked alone behind => exact ⟨.enclosed _ alone behind, .decimal marked alone behind⟩
  | token token behind ih =>
      cases token with
      | space | plus => exact ih
      | _ => exact ⟨behind.start (by simp), .token _ behind⟩

theorem leading (semantics : Semantics V ε) :
    Leading semantics Wrapped Wrapped fun _ _ => False where
  toBehind := id
  atEnd := atEnd
  skipSpaces wrapped := .inr wrapped.skipSpaces
  group wrapped := .inr wrapped.skipSpacesAndPluses
  signs := False.elim
  sum := False.elim
  sumTail _ := False.elim
  atom _ := False.elim

theorem parse {semantics : Semantics V ε} {value : V} (wrapped : Wrapped tokens tokens')
    (parsed : parse semantics tokens = .ok value) : Grammar.parse semantics tokens' = .ok value :=
  parse_leads (leading semantics) nil_left wrapped.closing parsed

end Wrapped

/-- An exponent stands at the front. -/
def exponentAhead : List Token → Bool
  | .euler :: .plus :: .number digits :: _ | .euler :: .minus :: .number digits :: _ =>
      digits.toList.all Char.isDigit
  | _ => false

theorem exponentAhead_iff : exponentAhead tokens = true ↔ BeginsExponent tokens := by
  constructor
  · intro ahead
    unfold exponentAhead at ahead
    split at ahead
    · exact ⟨_, _, _, rfl, .inl rfl, _, rfl, ahead⟩
    · exact ⟨_, _, _, rfl, .inr rfl, _, rfl, ahead⟩
    · contradiction
  · rintro ⟨_, _, rest, rfl, rfl | rfl, digits, rfl, whole⟩ <;> exact whole

instance : DecidablePred BeginsExponent := fun _ => decidable_of_iff _ exponentAhead_iff

open Lexeme (prepare piDigits prepare_append prepare_cons plain_pi plain_written)

/-- The characters with parentheses around each π. -/
def wrapPi (text : List Char) : List Char :=
  text.flatMap fun c => if c = 'π' then ['(', 'π', ')'] else [c]

theorem wrapPi_of_none {text : List Char} (none : 'π' ∉ text) : wrapPi text = text := by
  induction text with
  | nil => rfl
  | cons c rest ih =>
      simp only [List.mem_cons, not_or] at none
      rw [wrapPi, List.flatMap_cons, if_neg (Ne.symm none.1), List.singleton_append]
      exact congrArg (c :: ·) (ih none.2)

theorem wrapPi_append (front behind : List Char) :
    wrapPi (front ++ 'π' :: behind) = wrapPi front ++ '(' :: 'π' :: ')' :: wrapPi behind := by
  simp [wrapPi]

theorem no_sigma_wrapPi {text : List Char} (none : 'Σ' ∉ text) : 'Σ' ∉ wrapPi text := by
  intro member
  obtain ⟨c, found, same⟩ := List.mem_flatMap.mp member
  split at same
  · simp at same
  · obtain rfl := List.mem_singleton.mp same
    exact none found

theorem cut_pi (front behind : List Char) :
    Token.cut (front ++ 'π' :: behind) =
      Token.cut front ++ .number (String.ofList piDigits) :: Token.cut behind := by
  have digits : Token.ofLexeme piDigits = .number (String.ofList piDigits) := by decide +kernel
  rw [Token.cut_append_stop rfl (by decide) _ _ fun caret => absurd caret (by decide),
    Token.cut_eq_scan ('π' :: behind), Lexeme.scan_pi, List.map_cons, digits, ← Token.cut_eq_scan]

theorem cut_wrapped_pi (front behind : List Char) :
    Token.cut (front ++ '(' :: 'π' :: ')' :: behind) =
      Token.cut front ++ .opening :: .number (String.ofList piDigits) :: .closing ::
        Token.cut behind := by
  have digits : Token.ofLexeme piDigits = .number (String.ofList piDigits) := by decide +kernel
  rw [Token.cut_append_stop rfl (by decide) _ _ fun caret => absurd caret (by decide),
    Token.cut_eq_scan ('(' :: _), Lexeme.scan_parenthesis (.inl rfl), Lexeme.scan_pi,
    Lexeme.scan_parenthesis (.inr rfl), List.map_cons, List.map_cons, List.map_cons, digits,
    ← Token.cut_eq_scan]
  rfl

theorem wrapped_wrapPi (text : List Char) (none : 'Σ' ∉ text)
    (alone : ∀ behind, 'π' :: behind <:+ text → ¬ BeginsExponent (Token.cut (prepare behind))) :
    Wrapped (Token.cut (prepare text)) (Token.cut (prepare (wrapPi text))) := by
  induction size : text.length using Nat.strongRecOn generalizing text with
  | ind size ih =>
      subst size
      by_cases occurs : 'π' ∈ text
      · obtain ⟨front, behind, rfl, first⟩ := List.eq_append_cons_of_mem occurs
        simp only [List.mem_append, List.mem_cons, not_or] at none
        obtain ⟨before, -, after⟩ := none
        have shorter : behind.length < (front ++ 'π' :: behind).length := by simp +arith
        have rest := ih _ shorter behind after (fun further suffix => alone further
          (suffix.trans ((List.suffix_cons 'π' behind).trans (List.suffix_append _ _)))) rfl
        have text' : prepare (front ++ '(' :: 'π' :: ')' :: wrapPi behind) =
            prepare front ++ '(' :: 'π' :: ')' :: prepare (wrapPi behind) := by
          have none := no_sigma_wrapPi after
          rw [prepare_append (plain_written rfl) before (by simp [none]),
            prepare_cons plain_pi (by simp [none]), prepare_cons (plain_written rfl) none]
        rw [wrapPi_append, wrapPi_of_none first, prepare_append plain_pi before after, text',
          cut_pi, cut_wrapped_pi]
        exact .append _ (.decimal (by decide) (alone behind (List.suffix_append _ _)) rest)
      · rw [wrapPi_of_none occurs]
        exact .refl _

/-- π is a constant like any other: it may stand in parentheses, unless an exponent follows it. -/
theorem ofText_wrapPi (text : String) (value : Complex)
    (alone : ∀ behind, 'π' :: behind <:+ text.toList →
      ¬ BeginsExponent (Token.ofText (String.ofList behind)))
    (evaluated : Complex.ofText text = .ok value) :
    Complex.ofText (String.ofList (wrapPi text.toList)) = .ok value := by
  have parsed : parse Complex.semantics (Token.ofText text) = .ok value := evaluated
  have none := Token.no_sigma_of_known (wellPlaced_of_parse parsed).known
  have wrapped := wrapped_wrapPi text.toList none fun behind suffix => by
    simpa [Token.ofText_eq_cut] using alone behind suffix
  rw [← Token.ofText_eq_cut] at wrapped
  have parsed' := wrapped.parse parsed
  rw [Complex.ofText, Complex.ofTokens, Token.ofText_eq_cut, String.toList_ofList]
  exact parsed'

/-- In `2πe-0.5π(1+j)` the `e` and the decimal behind π are no exponent. -/
theorem ofText_wrapPi_factors :
    let value : Complex := ⟨Float.ofBits 0x402f0470ac032345, Float.ofBits 0xbff921fb54442d18⟩
    Complex.ofText "2πe-0.5π(1+j)" = .ok value ∧
      Complex.ofText "2(π)e-0.5(π)(1+j)" = .ok value := by
  intro value
  have evaluated : Complex.ofText "2πe-0.5π(1+j)" = .ok value := by decide +kernel
  have alone : ∀ rest ∈ "2πe-0.5π(1+j)".toList.tails, rest.head? = some 'π' →
      ¬ BeginsExponent (Token.ofText (String.ofList rest.tail)) := by
    decide +kernel
  have text : String.ofList (wrapPi "2πe-0.5π(1+j)".toList) = "2(π)e-0.5(π)(1+j)" := by
    decide +kernel
  have wrapped := ofText_wrapPi "2πe-0.5π(1+j)" value
    (fun behind suffix => alone ('π' :: behind) ((List.mem_tails _ _).mpr suffix) rfl) evaluated
  rw [text] at wrapped
  exact ⟨evaluated, wrapped⟩

/-- A sign and whole digits behind `πe` are an exponent: `πe+3` is about 3142, and `(π)e+3` about
11.54. -/
theorem not_ofText_wrapPi :
    ¬ ∀ (text : String) (value : Complex), Complex.ofText text = .ok value →
      Complex.ofText (String.ofList (wrapPi text.toList)) = .ok value := by
  intro always
  have literal : Complex.ofText "πe+3" = .ok ⟨Float.ofBits 0x40a88b2f704a9409, 0⟩ := by
    decide +kernel
  have sum : Complex.ofText (String.ofList (wrapPi "πe+3".toList)) =
      .ok ⟨Float.ofBits 0x402714580b45d474, 0⟩ := by
    decide +kernel
  have same := sum.symm.trans (always _ _ literal)
  exact absurd same (by decide +kernel)

end ComplexCalculator.Grammar
