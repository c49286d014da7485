import ComplexCalculator.Evaluation
import ComplexCalculator.Proofs.Grammar.Context
import ComplexCalculator.Proofs.Grammar.Parallel

namespace ComplexCalculator

namespace Token

/-- Whether the reader skips spaces behind the token. -/
def admitsSpaceBehind : Token → Bool
  | plus | minus | star | slash | caret | opening | exp | ln => true
  | _ => false

/-- Whether the reader skips spaces before the token. -/
def admitsSpaceBefore : Token → Bool
  | plus | minus | star | slash | caret | closing => true
  | _ => false

/-- The sign and the whole number of an exponent. -/
def IsExponent (sign number : Token) : Prop :=
  (sign = plus ∨ sign = minus) ∧
    ∃ digits, number = .number digits ∧ digits.toList.all Char.isDigit = true

end Token

namespace Grammar

/-- The place between the tokens lies in the exponent of a literal: before the sign or behind
it. -/
inductive InsideLiteral : List Token → List Token → Prop where
  | beforeSign (before : List Token) (text : String) {sign number : Token}
      (exponent : sign.IsExponent number) (rest : List Token) :
      InsideLiteral (before ++ [.number text, .euler]) (sign :: number :: rest)
  | behindSign (before : List Token) (text : String) {sign number : Token}
      (exponent : sign.IsExponent number) (rest : List Token) :
      InsideLiteral (before ++ [.number text, .euler, sign]) (number :: rest)

theorem InsideLiteral.cons {front back : List Token} (inside : InsideLiteral front back)
    (token : Token) : InsideLiteral (token :: front) back := by
  cases inside with
  | beforeSign before text exponent rest => exact .beforeSign (token :: before) text exponent rest
  | behindSign before text exponent rest => exact .behindSign (token :: before) text exponent rest

/-- A place between tokens where a space does not count. It may be the beginning or the end. -/
structure FreePlace (front back : List Token) : Prop where
  beside : (∀ token ∈ front.getLast?, token.admitsSpaceBehind = true) ∨
    ∀ token ∈ back.head?, token.admitsSpaceBefore = true
  outside : ¬ InsideLiteral front back

/-- One of the tokens around the place is an operator that a space does not part. -/
def SpaceBeside (front back : List Token) : Prop :=
  (∃ token ∈ front.getLast?, token.admitsSpaceBehind = true) ∨
    ∃ token ∈ back.head?, token.admitsSpaceBefore = true

theorem SpaceBeside.of_cons {token : Token} {front back : List Token}
    (beside : SpaceBeside (token :: front) back)
    (refuses : front = [] → token.admitsSpaceBehind = false) : SpaceBeside front back := by
  cases front with
  | nil => exact .inr (beside.resolve_left (by simp [refuses rfl]))
  | cons => simpa [SpaceBeside] using beside

/-- The same tokens, or one more space beside an operator. -/
inductive Spaced : List Token → List Token → Prop where
  | same (tokens : List Token) : Spaced tokens tokens
  | inserted {front back : List Token} (beside : SpaceBeside front back)
      (outside : ¬ InsideLiteral front back) : Spaced (front ++ back) (front ++ .space :: back)

/-- The same tokens, or one more space in front or beside an operator. -/
inductive SpacedAhead : List Token → List Token → Prop where
  | spaced {tokens tokens' : List Token} (spaced : Spaced tokens tokens') :
      SpacedAhead tokens tokens'
  | inFront (tokens : List Token) : SpacedAhead tokens (.space :: tokens)

variable {tokens tokens' : List Token}

theorem Spaced.front (spaced : Spaced tokens tokens') :
    tokens' = tokens ∨
      (∃ token rest, tokens = token :: rest ∧ tokens' = .space :: token :: rest ∧
        token.admitsSpaceBefore = true) ∨
      ∃ token rest rest', tokens = token :: rest ∧ tokens' = token :: rest' ∧
        SpacedAhead rest rest' ∧ (token.admitsSpaceBehind = false → Spaced rest rest') := by
  cases spaced with
  | same => exact .inl rfl
  | @inserted front back beside outside =>
      refine .inr ?_
      match front with
      | [] =>
          rcases beside with ⟨_, last, _⟩ | ⟨token, head, admits⟩
          · cases last
          · obtain ⟨rest, rfl⟩ := List.head?_eq_some_iff.mp head
            exact .inl ⟨token, rest, rfl, rfl, admits⟩
      | [token] =>
          refine .inr ⟨token, back, _, rfl, rfl, .inFront back, fun refuses => ?_⟩
          have before : SpaceBeside [] back := beside.of_cons fun _ => refuses
          exact .inserted before fun inside => outside (inside.cons token)
      | token :: second :: front =>
          have behind : Spaced (second :: front ++ back) (second :: front ++ .space :: back) :=
            .inserted (beside.of_cons nofun) fun inside => outside (inside.cons token)
          exact .inr ⟨token, _, _, rfl, rfl, .spaced behind, fun _ => behind⟩

theorem Spaced.atEnd (spaced : Spaced tokens tokens') : atEnd tokens = Grammar.atEnd tokens' := by
  rcases spaced.front with rfl | ⟨token, rest, rfl, rfl, admits⟩ | ⟨token, rest, rest', rfl, rfl, _⟩
  · rfl
  · cases token <;> first | rfl | cases admits
  · rfl

theorem Spaced.eq_nil_iff (spaced : Spaced tokens tokens') : tokens = [] ↔ tokens' = [] := by
  rcases spaced.front with rfl | ⟨token, rest, rfl, rfl, _⟩ | ⟨token, rest, rest', rfl, rfl, _⟩ <;>
    simp

theorem SpacedAhead.front (spaced : SpacedAhead tokens tokens') :
    tokens' = tokens ∨ tokens' = .space :: tokens ∨
      ∃ token rest rest', tokens = token :: rest ∧ tokens' = token :: rest' ∧
        Spaced (token :: rest) (token :: rest') ∧ SpacedAhead rest rest' ∧
        (token.admitsSpaceBehind = false → Spaced rest rest') := by
  cases spaced with
  | inFront => exact .inr (.inl rfl)
  | spaced spaced =>
      rcases spaced.front with same | ⟨token, rest, rfl, rfl, _⟩ |
        ⟨token, rest, rest', rfl, rfl, ahead, behind⟩
      · exact .inl same
      · exact .inr (.inl rfl)
      · exact .inr (.inr ⟨token, rest, rest', rfl, rfl, spaced, ahead, behind⟩)

theorem SameFront.same (tokens : List Token) : SameFront Spaced SpacedAhead tokens tokens := by
  cases tokens with
  | nil => exact .nil (.same [])
  | cons token rest =>
      exact .cons (.same _) (fun _ => .spaced (.same rest)) fun _ _ => .same rest

theorem SameFront.spaced {token : Token} {rest rest' : List Token}
    (whole : Spaced (token :: rest) (token :: rest')) (ahead : SpacedAhead rest rest')
    (behind : token.admitsSpaceBehind = false → Spaced rest rest') :
    SameFront Spaced SpacedAhead (token :: rest) (token :: rest') := by
  refine .cons whole (fun _ => ahead) fun value notOpening => behind ?_
  cases token <;> first | rfl | contradiction

theorem SpacedAhead.skipSpaces (spaced : SpacedAhead tokens tokens') :
    SameFront Spaced SpacedAhead (skipSpaces tokens) (Grammar.skipSpaces tokens') := by
  induction tokens generalizing tokens' with
  | nil =>
      rcases spaced.front with rfl | rfl | ⟨token, rest, rest', impossible, _⟩
      · exact .same []
      · exact .same []
      · cases impossible
  | cons first tokens ih =>
      rcases spaced.front with rfl | rfl | ⟨token, rest, rest', same, rfl, whole, ahead, behind⟩
      · exact .same _
      · exact .same (Grammar.skipSpaces (first :: tokens))
      · cases same
        by_cases space : first = .space
        · subst space
          have skipped := ih ahead
          exact skipped
        · rw [skipSpaces_cons _ space, skipSpaces_cons _ space]
          exact .spaced whole ahead behind

theorem SpacedAhead.skipSpacesAndPluses (spaced : SpacedAhead tokens tokens') :
    SameFront Spaced SpacedAhead (skipSpacesAndPluses tokens)
      (Grammar.skipSpacesAndPluses tokens') := by
  induction tokens generalizing tokens' with
  | nil =>
      rcases spaced.front with rfl | rfl | ⟨token, rest, rest', impossible, _⟩
      · exact .same []
      · exact .same []
      · cases impossible
  | cons first tokens ih =>
      rcases spaced.front with rfl | rfl | ⟨token, rest, rest', same, rfl, whole, ahead, behind⟩
      · exact .same _
      · exact .same (Grammar.skipSpacesAndPluses (first :: tokens))
      · cases same
        have skipped := ih ahead
        cases first with
        | space | plus => exact skipped
        | _ => exact .spaced whole ahead behind

theorem spelling_of_exponent {sign number : Token} (text : String)
    (exponent : sign.IsExponent number) :
    ∃ spelled, ∀ rest, spelling text (.euler :: sign :: number :: rest) = (spelled, rest) := by
  obtain ⟨signs, digits, rfl, whole⟩ := exponent
  rcases signs with rfl | rfl <;> exact ⟨_, fun rest => if_pos whole⟩

/-- The tokens begin with an exponent part. -/
def BeginsExponent (tokens : List Token) : Prop :=
  ∃ sign number rest, tokens = .euler :: sign :: number :: rest ∧ sign.IsExponent number

theorem spelling_of_not_begins (text : String) (plain : ¬ BeginsExponent tokens) :
    spelling text tokens = (text, tokens) := by
  unfold spelling
  split
  · exact if_neg fun whole => plain ⟨_, _, _, rfl, .inl rfl, _, rfl, whole⟩
  · exact if_neg fun whole => plain ⟨_, _, _, rfl, .inr rfl, _, rfl, whole⟩
  · rfl

theorem beginsExponent_of_space {front back : List Token}
    (begins : BeginsExponent (front ++ .space :: back)) : BeginsExponent front := by
  obtain ⟨sign, number, rest, split, exponent⟩ := begins
  obtain ⟨signs, digits, rfl, whole⟩ := exponent
  match front with
  | [] | [_] | [_, _] => rcases signs with rfl | rfl <;> cases split
  | first :: second :: third :: front =>
      cases split
      exact ⟨_, _, front, rfl, signs, digits, rfl, whole⟩

theorem beginsExponent_of_free {text : String} {front back : List Token}
    (begins : BeginsExponent (front ++ back))
    (beside : SpaceBeside front back) (outside : ¬ InsideLiteral (.number text :: front) back) :
    BeginsExponent front := by
  obtain ⟨sign, number, rest, split, exponent⟩ := begins
  match front with
  | [] =>
      cases split
      rcases beside with ⟨_, last, _⟩ | ⟨_, head, admits⟩
      · cases last
      · cases head
        cases admits
  | [_] =>
      cases split
      exact absurd (.beforeSign [] text exponent rest) outside
  | [_, _] =>
      cases split
      exact absurd (.behindSign [] text exponent rest) outside
  | first :: second :: third :: front =>
      cases split
      exact ⟨_, _, front, rfl, exponent⟩

/-- The space is not in the exponent, so the literal is the same with the space. -/
theorem spelling_inserted {text : String} {front back : List Token}
    (beside : SpaceBeside (.number text :: front) back)
    (outside : ¬ InsideLiteral (.number text :: front) back) :
    (spelling text (front ++ back)).1 = (spelling text (front ++ .space :: back)).1 ∧
      Spaced (spelling text (front ++ back)).2 (spelling text (front ++ .space :: back)).2 := by
  have behind : SpaceBeside front back := beside.of_cons fun _ => rfl
  by_cases begins : BeginsExponent front
  · obtain ⟨sign, number, rest, rfl, exponent⟩ := begins
    obtain ⟨spelled, same⟩ := spelling_of_exponent text exponent
    have left : Spaced (rest ++ back) (rest ++ .space :: back) := by
      obtain ⟨_, digits, rfl, _⟩ := exponent
      exact .inserted (((behind.of_cons nofun).of_cons nofun).of_cons fun _ => rfl)
        fun inside => outside ((((inside.cons _).cons _).cons _).cons _)
    simpa only [List.cons_append, same, true_and] using left
  · rw [spelling_of_not_begins text fun whole => begins (beginsExponent_of_free whole behind outside),
      spelling_of_not_begins text fun whole => begins (beginsExponent_of_space whole)]
    exact ⟨rfl, .inserted behind fun inside => outside (inside.cons _)⟩

theorem Spaced.spelling {text : String}
    (spaced : Spaced (.number text :: tokens) (.number text :: tokens')) :
    (spelling text tokens).1 = (Grammar.spelling text tokens').1 ∧
      Spaced (spelling text tokens).2 (Grammar.spelling text tokens').2 := by
  generalize whole : Token.number text :: tokens = list,
    whole' : Token.number text :: tokens' = list' at spaced
  cases spaced with
  | same =>
      obtain rfl : tokens = tokens' := by simpa using whole.trans whole'.symm
      exact ⟨rfl, .same _⟩
  | @inserted front back beside outside =>
      match front with
      | [] => cases whole'
      | token :: front =>
          cases whole
          cases whole'
          exact spelling_inserted beside outside

theorem Spaced.parallel : Parallel Spaced SpacedAhead where
  toAhead := .spaced
  atEnd := Spaced.atEnd
  skipSpaces := SpacedAhead.skipSpaces
  skipSpacesAndPluses := SpacedAhead.skipSpacesAndPluses
  spelling := Spaced.spelling

theorem Spaced.group {rest rest' : List Token}
    (spaced : Spaced (.opening :: rest) (.opening :: rest')) : SpacedAhead rest rest' := by
  rcases spaced.front with same | ⟨token, left, _, impossible, _⟩ |
    ⟨token, left, left', split, split', ahead, _⟩
  · cases same
    exact .spaced (.same rest)
  · cases impossible
  · cases split
    cases split'
    exact ahead

theorem InsideLiteral.of_closing {front back : List Token}
    (inside : InsideLiteral front (back ++ [Token.closing])) : InsideLiteral front back := by
  generalize whole : back ++ [Token.closing] = closed at inside
  cases inside with
  | beforeSign before text exponent rest =>
      match back with
      | [] => cases whole
      | [_] =>
          cases whole
          obtain ⟨_, _, impossible, _⟩ := exponent
          cases impossible
      | _ :: _ :: back =>
          cases whole
          exact .beforeSign before text exponent back
  | behindSign before text exponent rest =>
      match back with
      | [] =>
          cases whole
          obtain ⟨_, _, impossible, _⟩ := exponent
          cases impossible
      | _ :: back =>
          cases whole
          exact .behindSign before text exponent back

/-- The parenthesis that closes the whole expression makes the end a place like others. -/
theorem FreePlace.spacedAhead {front back : List Token} (free : FreePlace front back) :
    SpacedAhead (front ++ back ++ [Token.closing])
      (front ++ Token.space :: back ++ [Token.closing]) := by
  cases front with
  | nil => exact .inFront _
  | cons token front =>
      have beside : SpaceBeside (token :: front) (back ++ [Token.closing]) := by
        refine free.beside.imp (fun admits => ?_) fun admits => ?_
        · exact ⟨_, List.getLast?_eq_some_getLast (by simp), admits _ (List.getLast?_eq_some_getLast _)⟩
        · cases back with
          | nil => exact ⟨.closing, rfl, rfl⟩
          | cons head back => exact ⟨head, rfl, admits head rfl⟩
      simpa using SpacedAhead.spaced (.inserted beside (mt InsideLiteral.of_closing free.outside))

/-- A space beside an operator, at the beginning or at the end does not count, outside of
literals: the outcome is the same, but for the tokens that a syntax error shows. -/
theorem ofTokens_space (front back : List Token) (free : FreePlace front back) :
    SameOutcome Eq (Complex.ofTokens (front ++ back))
      (Complex.ofTokens (front ++ Token.space :: back)) := by
  refine sameOutcome_of_beside Spaced.eq_nil_iff (read_beside Spaced.parallel ?_ .group ?_)
  · exact fun _ _ opened => .inl opened.group
  · exact free.spacedAhead

/-- In `2e+3.5` there is no exponent, and a space may stand behind the plus. -/
theorem ofTokens_space_constant :
    let front := [.number "2", .euler, .plus]
    let back := [.number "3.5"]
    FreePlace front back ∧
      SameOutcome Eq (Complex.ofTokens (front ++ back))
        (Complex.ofTokens (front ++ Token.space :: back)) := by
  intro front back
  have outside : ¬ InsideLiteral [.number "2", .euler, .plus] [.number "3.5"] := by
    generalize [Token.number "2", .euler, .plus] = before, split : [Token.number "3.5"] = behind
    intro inside
    cases inside with
    | beforeSign before text exponent rest => cases split
    | behindSign before text exponent rest =>
        obtain ⟨_, digits, rfl, whole⟩ := exponent
        cases split
        simp at whole
  have free : FreePlace front back := ⟨.inl fun token last => by cases last; rfl, outside⟩
  exact ⟨free, ofTokens_space front back free⟩

end Grammar

end ComplexCalculator
