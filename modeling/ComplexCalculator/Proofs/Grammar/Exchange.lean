import ComplexCalculator.Proofs.Grammar.Locality
import ComplexCalculator.Proofs.Grammar.Parallel
import ComplexCalculator.Proofs.Grammar.Terms

namespace ComplexCalculator.Grammar

variable {V ε : Type}

/-- The same tokens, but for what stands behind one opening parenthesis. -/
inductive Exchanged (inside inside' : List Token) : List Token → List Token → Prop where
  | same (tokens : List Token) : Exchanged inside inside' tokens tokens
  | opening : Exchanged inside inside' (.opening :: inside) (.opening :: inside')
  | cons (token : Token) {tokens tokens' : List Token}
      (behind : Exchanged inside inside' tokens tokens') :
      Exchanged inside inside' (token :: tokens) (token :: tokens')

namespace Exchanged

variable {inside inside' tokens tokens' : List Token}

theorem append (front : List Token) (exchanged : Exchanged inside inside' tokens tokens') :
    Exchanged inside inside' (front ++ tokens) (front ++ tokens') := by
  induction front with
  | nil => exact exchanged
  | cons token front ih => exact .cons token ih

theorem front (exchanged : Exchanged inside inside' tokens tokens') :
    SameFront (Exchanged inside inside') (Exchanged inside inside') tokens tokens' := by
  cases exchanged with
  | same =>
      cases tokens with
      | nil => exact .nil (.same [])
      | cons token rest => exact .cons (.same _) (fun _ => .same rest) fun _ _ => .same rest
  | opening => exact .cons .opening nofun fun _ other => absurd rfl other
  | cons token behind => exact .cons (.cons token behind) (fun _ => behind) fun _ _ => behind

theorem eq_nil_iff (exchanged : Exchanged inside inside' tokens tokens') :
    tokens = [] ↔ tokens' = [] := by
  cases exchanged <;> simp

theorem skipSpaces (exchanged : Exchanged inside inside' tokens tokens') :
    Exchanged inside inside' (skipSpaces tokens) (Grammar.skipSpaces tokens') := by
  induction exchanged with
  | same tokens => exact .same _
  | opening => exact .opening
  | @cons token tokens tokens' behind ih =>
      by_cases space : token = .space
      · subst space
        exact ih
      · rw [skipSpaces_cons _ space, skipSpaces_cons _ space]
        exact .cons token behind

theorem skipSpacesAndPluses (exchanged : Exchanged inside inside' tokens tokens') :
    Exchanged inside inside' (skipSpacesAndPluses tokens)
      (Grammar.skipSpacesAndPluses tokens') := by
  induction exchanged with
  | same tokens => exact .same _
  | opening => exact .opening
  | @cons token tokens tokens' behind ih =>
      cases token with
      | space | plus => exact ih
      | _ => exact .cons _ behind

theorem atEnd (exchanged : Exchanged inside inside' tokens tokens') :
    atEnd tokens = Grammar.atEnd tokens' := by
  cases exchanged <;> rfl

theorem spelling (text : String) (exchanged : Exchanged inside inside' tokens tokens') :
    (spelling text tokens).1 = (Grammar.spelling text tokens').1 ∧
      Exchanged inside inside' (spelling text tokens).2 (Grammar.spelling text tokens').2 := by
  cases exchanged with
  | same => exact ⟨rfl, .same _⟩
  | opening => exact ⟨rfl, .opening⟩
  | cons first behind =>
      cases behind with
      | same => exact ⟨rfl, .same _⟩
      | opening => cases first <;> exact ⟨rfl, .cons _ .opening⟩
      | cons second behind =>
          cases behind with
          | same => exact ⟨rfl, .same _⟩
          | opening =>
              cases first with
              | euler => cases second <;> exact ⟨rfl, .cons _ (.cons _ .opening)⟩
              | _ => exact ⟨rfl, .cons _ (.cons _ .opening)⟩
          | cons third behind =>
              rcases spelling_three text first second third with spelled | spelled
              · obtain ⟨whole, spelled⟩ := spelled
                rw [spelled, spelled]
                exact ⟨rfl, behind⟩
              · rw [spelled, spelled]
                exact ⟨rfl, .cons _ (.cons _ (.cons _ behind))⟩

theorem parallel (inside inside' : List Token) :
    Parallel (Exchanged inside inside') (Exchanged inside inside') where
  toAhead := id
  atEnd := atEnd
  skipSpaces exchanged := exchanged.skipSpaces.front
  skipSpacesAndPluses exchanged := exchanged.skipSpacesAndPluses.front
  spelling exchanged := by
    cases exchanged with
    | same => exact ⟨rfl, .same _⟩
    | cons _ behind => exact behind.spelling _

end Exchanged

variable {semantics : Semantics V ε} {inside inside' rest : List Token} {value : V}

theorem read_exchanged (group : read semantics .group inside = .ok (value, rest))
    (group' : read semantics .group inside' = .ok (value, rest)) {tokens tokens' : List Token}
    (exchanged : Exchanged inside inside' tokens tokens') :
    (read semantics .group tokens).Beside (Exchanged inside inside')
      (read semantics .group tokens') := by
  refine read_beside (Exchanged.parallel inside inside') ?_ .group exchanged
  intro left left' opened
  cases opened with
  | same => exact .inl (.same left)
  | opening =>
      rw [group, group']
      exact .inr (.ok ⟨rfl, .same rest⟩)
  | cons _ behind => exact .inl behind

/-- An expression in parentheses counts by its value only, whatever surrounds it. -/
theorem parse_exchange (parsed : parse semantics inside = .ok value)
    (parsed' : parse semantics inside' = .ok value) (before behind : List Token) :
    SameOutcome Eq (parse semantics (before ++ Token.opening :: (inside ++ Token.closing :: behind)))
      (parse semantics (before ++ Token.opening :: (inside' ++ Token.closing :: behind))) := by
  have exchanged : Exchanged (inside ++ Token.closing :: (behind ++ [Token.closing]))
      (inside' ++ Token.closing :: (behind ++ [Token.closing]))
      (before ++ Token.opening :: (inside ++ Token.closing :: behind) ++ [Token.closing])
      (before ++ Token.opening :: (inside' ++ Token.closing :: behind) ++ [Token.closing]) := by
    simpa using Exchanged.opening.append before
  exact sameOutcome_of_beside Exchanged.eq_nil_iff
    (read_exchanged (read_group_of_parse parsed _) (read_group_of_parse parsed' _) exchanged)

/-- A group is one atom. -/
theorem isAtom_enclosed {tokens : List Token} (parsed : parse semantics tokens = .ok value) :
    IsAtom semantics (enclosed tokens) value where
  begins := rfl
  reads := by
    intro rest ends
    have split : enclosed tokens ++ rest = .opening :: (tokens ++ .closing :: rest) := by
      simp [enclosed]
    rw [split, read_eq_step, step]
    simp only [skipSpaces]
    rw [read_group_of_parse parsed rest]
    exact read_glued_of_atEnd ends

theorem parse_enclosed {tokens : List Token} (parsed : parse semantics tokens = .ok value) :
    parse semantics (enclosed tokens) = .ok value := by
  have group := (isAtom_enclosed parsed).isTerm.group (.closing [])
  rw [read_sumTail_closing] at group
  rw [parse, group]
  rfl

theorem parse_enclosed_iterate {tokens : List Token} (parsed : parse semantics tokens = .ok value)
    (count : Nat) : parse semantics (enclosed^[count] tokens) = .ok value := by
  induction count with
  | zero => exact parsed
  | succ count ih =>
      rw [Function.iterate_succ_apply']
      exact parse_enclosed ih

/-- Expressions of the same value can stand for each other in parentheses: the outcome is the
same, but for the tokens that a syntax error shows. Parentheses around a whole expression do not
change its value. -/
theorem ofTokens_exchange (before inside inside' behind : List Token) (value : Complex)
    (evaluated : Complex.ofTokens inside = .ok value)
    (evaluated' : Complex.ofTokens inside' = .ok value) :
    SameOutcome Eq
      (Complex.ofTokens (before ++ [Token.opening] ++ inside ++ [Token.closing] ++ behind))
      (Complex.ofTokens (before ++ [Token.opening] ++ inside' ++ [Token.closing] ++ behind)) ∧
    ∀ count, Complex.ofTokens (enclosed^[count] inside) = .ok value := by
  constructor
  · simpa [Complex.ofTokens] using parse_exchange evaluated evaluated' before behind
  · exact parse_enclosed_iterate evaluated

/-- `(+ e)` and `((e))` behind `2^` and before a glued factor, a stray parenthesis and more. -/
theorem ofTokens_exchange_exponent :
    let before := [.number "2", .caret]
    let inside := [.plus, .space, .euler]
    let inside' := [.opening, .euler, .closing]
    let behind := [.imaginaryUnit, .space, .closing, .star]
    Complex.ofTokens inside = .ok Complex.euler ∧ Complex.ofTokens inside' = .ok Complex.euler ∧
      SameOutcome Eq
        (Complex.ofTokens (before ++ [Token.opening] ++ inside ++ [Token.closing] ++ behind))
        (Complex.ofTokens (before ++ [Token.opening] ++ inside' ++ [Token.closing] ++ behind)) ∧
      Complex.ofTokens (enclosed^[3] inside) = .ok Complex.euler := by
  intro before inside inside' behind
  have first : Complex.ofTokens inside = .ok Complex.euler := rfl
  have second : Complex.ofTokens inside' = .ok Complex.euler := rfl
  have exchange := ofTokens_exchange before inside inside' behind Complex.euler first second
  exact ⟨first, second, exchange.1, exchange.2 3⟩

end ComplexCalculator.Grammar
