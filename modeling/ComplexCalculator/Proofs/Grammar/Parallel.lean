import ComplexCalculator.Proofs.Grammar.Induction

/-!
Reading two lists of tokens side by side.

Two lists that differ only where the grammar does not look are read in the same way. `Parallel`
says what such a relation between lists must satisfy: wherever a rule looks, both lists show the
same token. `read_beside` concludes that all readings of related lists have the same outcome, up
to the tokens that a syntax error shows.
-/

namespace ComplexCalculator

/-- The same error, whatever tokens are left. -/
inductive SyntaxError.Alike : SyntaxError → SyntaxError → Prop where
  | unexpected (text : String) (rest rest' : List Token) :
      Alike (.unexpected text rest) (.unexpected text rest')
  | strayClosing (rest rest' : List Token) : Alike (.strayClosing rest) (.strayClosing rest')
  | unclosed : Alike .unclosed .unclosed
  | closingExpected (found : Token) (rest rest' : List Token) :
      Alike (.closingExpected found rest) (.closingExpected found rest')

/-- Whether an operand stands behind the token. -/
def Token.asksOperand : Token → Bool
  | plus | minus | star | slash | caret | exp | ln => true
  | _ => false

namespace Grammar

variable {V ε : Type}

/-- The same failed operation, the same syntax error before other tokens, or results that are
`same`. -/
inductive SameOutcome {α : Type} (same : α → α → Prop) :
    Except (Failure ε) α → Except (Failure ε) α → Prop where
  | ok {result result' : α} (holds : same result result') :
      SameOutcome same (.ok result) (.ok result')
  | arithmetic (error : ε) :
      SameOutcome same (.error (.arithmetic error)) (.error (.arithmetic error))
  | malformed {error error' : SyntaxError} (alike : error.Alike error') :
      SameOutcome same (.error (.malformed error)) (.error (.malformed error'))

/-- Both lists begin with the same token. Behind an operator or a function the lists are those
of an operand, behind any other token but an opening parenthesis those behind a value. -/
inductive SameFront (behind ahead : List Token → List Token → Prop) :
    List Token → List Token → Prop where
  | nil (ended : behind [] []) : SameFront behind ahead [] []
  | cons {token : Token} {rest rest' : List Token}
      (whole : behind (token :: rest) (token :: rest'))
      (operand : token.asksOperand = true → ahead rest rest')
      (value : token.asksOperand = false → token ≠ .opening → behind rest rest') :
      SameFront behind ahead (token :: rest) (token :: rest')

/-- Lists of tokens that look the same to the grammar: `behind` relates them where a value may
have ended, `ahead` where an operand or a group begins, so that spaces in front do not count. -/
structure Parallel (behind ahead : List Token → List Token → Prop) : Prop where
  toAhead : ∀ {tokens tokens'}, behind tokens tokens' → ahead tokens tokens'
  atEnd : ∀ {tokens tokens'}, behind tokens tokens' → atEnd tokens = atEnd tokens'
  skipSpaces : ∀ {tokens tokens'}, ahead tokens tokens' →
    SameFront behind ahead (skipSpaces tokens) (skipSpaces tokens')
  skipSpacesAndPluses : ∀ {tokens tokens'}, ahead tokens tokens' →
    SameFront behind ahead (skipSpacesAndPluses tokens) (skipSpacesAndPluses tokens')
  spelling : ∀ {text tokens tokens'}, behind (.number text :: tokens) (.number text :: tokens') →
    (spelling text tokens).1 = (spelling text tokens').1 ∧
      behind (spelling text tokens).2 (spelling text tokens').2

/-- The same value before related tokens, or the same failure. -/
def Reading.Beside (behind : List Token → List Token → Prop) (reading reading' : Reading V ε) :
    Prop :=
  SameOutcome (fun left right => left.1 = right.1 ∧ behind left.2 right.2) reading reading'

/-- A reading that a step makes, beside one of the grammar. A call that the step does not make
is marked. -/
def Reading.Follows (behind : List Token → List Token → Prop) (marker : Failure ε)
    (reading reading' : Reading V ε) : Prop :=
  reading = .error marker ∨ reading.Beside behind reading'

/-- Which lists a rule may be called on. Only what is glued to a value depends on spaces in
front of it. -/
def Rule.Takes (behind ahead : List Token → List Token → Prop) :
    Rule V → List Token → List Token → Prop
  | .glued _ => behind
  | _ => ahead

variable {behind ahead : List Token → List Token → Prop}

namespace Reading.Follows

variable {marker : Failure ε} {reading reading' : Reading V ε}
variable {next next' : V → List Token → Reading V ε} {rest rest' : List Token}

theorem value (value : V) (related : behind rest rest') :
    Reading.Follows behind marker (.ok (value, rest) : Reading V ε) (.ok (value, rest')) :=
  .inr (.ok ⟨rfl, related⟩)

theorem malformed {error error' : SyntaxError} (alike : error.Alike error') :
    Reading.Follows behind marker (.error (.malformed error) : Reading V ε)
      (.error (.malformed error')) :=
  .inr (.malformed alike)

theorem andThen (follows : reading.Follows behind marker reading')
    (following : ∀ value rest rest', behind rest rest' →
      (next value rest).Follows behind marker (next' value rest')) :
    (reading.andThen next).Follows behind marker (reading'.andThen next') := by
  rcases follows with rfl | beside
  · exact .inl rfl
  · cases beside with
    | @ok result result' holds =>
        obtain ⟨value, rest⟩ := result
        obtain ⟨value', rest'⟩ := result'
        obtain ⟨rfl, related⟩ := holds
        exact following value rest rest' related
    | arithmetic error => exact .inr (.arithmetic error)
    | malformed alike => exact .inr (.malformed alike)

theorem compute (result : Except ε V) (related : behind rest rest') :
    (compute result rest).Follows behind marker (Grammar.compute result rest') := by
  cases result with
  | ok value => exact .value value related
  | error error => exact .inr (.arithmetic error)

theorem closeGroup (parallel : Parallel behind ahead) (value : V) (related : behind rest rest') :
    (closeGroup value rest : Reading V ε).Follows behind marker
      (Grammar.closeGroup value rest') := by
  have front := parallel.skipSpaces (parallel.toAhead related)
  unfold Grammar.closeGroup
  generalize skipSpaces rest = rest, skipSpaces rest' = rest' at front
  cases front with
  | nil => exact .malformed .unclosed
  | @cons token _ _ _ _ left =>
      cases token with
      | closing => exact .value value (left rfl (by simp))
      | _ => exact .malformed (.closingExpected _ _ _)

end Reading.Follows

section Step

variable {semantics : Semantics V ε} {marker : Failure ε}
variable {reader : Rule V → List Token → Reading V ε}
variable (parallel : Parallel behind ahead)
variable (calls : ∀ rule tokens tokens', rule.Takes behind ahead tokens tokens' →
  (reader rule tokens).Follows behind marker (read semantics rule tokens'))
variable {tokens tokens' : List Token} (related : ahead tokens tokens')

include parallel calls related

theorem follows_group :
    (step semantics reader .group tokens).Follows behind marker
      (step semantics (read semantics) .group tokens') := by
  have close (rule : Rule V) (tokens tokens' : List Token)
      (taken : rule.Takes behind ahead tokens tokens') :
      ((reader rule tokens).andThen closeGroup).Follows behind marker
        ((read semantics rule tokens').andThen closeGroup) :=
    (calls rule _ _ taken).andThen fun value _ _ related => .closeGroup parallel value related
  have front := parallel.skipSpacesAndPluses related
  simp only [step]
  generalize skipSpacesAndPluses tokens = tokens, skipSpacesAndPluses tokens' = tokens' at front
  cases front with
  | nil ended => exact .value _ ended
  | @cons token _ _ whole _ value =>
      cases token with
      | closing => exact .value _ (value rfl (by simp))
      | minus => exact close (.sumTail semantics.zero) _ _ (parallel.toAhead whole)
      | _ => exact close .sum _ _ (parallel.toAhead whole)

theorem follows_sum :
    (step semantics reader .sum tokens).Follows behind marker
      (step semantics (read semantics) .sum tokens') := by
  have terms (tokens tokens' : List Token) (related : behind tokens tokens') :
      ((reader .product tokens).andThen fun left => reader (.sumTail left)).Follows behind marker
        ((read semantics .product tokens').andThen fun left => read semantics (.sumTail left)) :=
    (calls .product _ _ (parallel.toAhead related)).andThen fun left _ _ related =>
      calls (.sumTail left) _ _ (parallel.toAhead related)
  have front := parallel.skipSpaces related
  simp only [step]
  generalize skipSpaces tokens = tokens, skipSpaces tokens' = tokens' at front
  cases front with
  | nil ended => exact terms [] [] ended
  | @cons token _ _ whole operand _ =>
      cases token with
      | plus => exact calls .sum _ _ (operand rfl)
      | minus => exact calls (.sumTail semantics.zero) _ _ (parallel.toAhead whole)
      | _ => exact terms _ _ whole

theorem follows_sumTail (left : V) :
    (step semantics reader (.sumTail left) tokens).Follows behind marker
      (step semantics (read semantics) (.sumTail left) tokens') := by
  have front := parallel.skipSpaces related
  simp only [step]
  generalize skipSpaces tokens = tokens, skipSpaces tokens' = tokens' at front
  cases front with
  | nil ended => exact .value _ ended
  | @cons token _ _ whole operand _ =>
      cases token with
      | plus =>
          exact (calls .sum _ _ (operand rfl)).andThen
            fun right _ _ related => .compute _ related
      | minus =>
          refine (calls .product _ _ (operand rfl)).andThen fun right _ _ related => ?_
          exact (Reading.Follows.compute _ related).andThen fun difference _ _ related =>
            calls (.sumTail difference) _ _ (parallel.toAhead related)
      | _ => exact .value _ whole

theorem follows_product :
    (step semantics reader .product tokens).Follows behind marker
      (step semantics (read semantics) .product tokens') :=
  (calls .power _ _ related).andThen fun left _ _ related =>
    calls (.productTail left) _ _ (parallel.toAhead related)

theorem follows_quotientTail (quotient : V) :
    (quotientTail semantics reader quotient tokens).Follows behind marker
      (quotientTail semantics (read semantics) quotient tokens') := by
  have factor (tokens tokens' : List Token) (related : ahead tokens tokens') :
      ((reader .product tokens).andThen fun right =>
        compute (semantics.mul quotient right)).Follows behind marker
        ((read semantics .product tokens').andThen fun right =>
          compute (semantics.mul quotient right)) :=
    (calls .product _ _ related).andThen fun right _ _ related => .compute _ related
  have front := parallel.skipSpaces related
  unfold quotientTail termAfterQuotient
  generalize skipSpaces tokens = tokens, skipSpaces tokens' = tokens' at front
  cases front with
  | nil ended => exact .value _ ended
  | @cons token _ _ whole operand _ =>
      cases token with
      | star | slash => exact factor _ _ (operand rfl)
      | plus | minus | caret | closing | space => exact .value _ whole
      | _ => exact factor _ _ (parallel.toAhead whole)

theorem follows_factorTail (left : V) :
    (factorTail semantics reader left tokens).Follows behind marker
      (factorTail semantics (read semantics) left tokens') := by
  refine (calls .atom _ _ related).andThen fun factor _ _ related => ?_
  refine (Reading.Follows.compute _ related).andThen fun product _ _ related => ?_
  refine (calls (.glued product) _ _ related).andThen fun group _ _ related => ?_
  refine (calls (.powerTail group) _ _ (parallel.toAhead related)).andThen
    fun group _ _ related => ?_
  exact calls (.productTail group) _ _ (parallel.toAhead related)

theorem follows_productTail (left : V) :
    (step semantics reader (.productTail left) tokens).Follows behind marker
      (step semantics (read semantics) (.productTail left) tokens') := by
  have front := parallel.skipSpaces related
  simp only [step]
  generalize skipSpaces tokens = tokens, skipSpaces tokens' = tokens' at front
  cases front with
  | nil ended => exact .value _ ended
  | @cons token _ _ whole operand _ =>
      cases token with
      | star =>
          exact (calls .product _ _ (operand rfl)).andThen
            fun right _ _ related => .compute _ related
      | slash =>
          refine (calls .power _ _ (operand rfl)).andThen fun divisor _ _ related => ?_
          exact (Reading.Follows.compute _ related).andThen fun quotient _ _ related =>
            follows_quotientTail parallel calls (parallel.toAhead related) quotient
      | plus | minus | caret | closing | space => exact .value _ whole
      | _ => exact follows_factorTail parallel calls (parallel.toAhead whole) left

theorem follows_power :
    (step semantics reader .power tokens).Follows behind marker
      (step semantics (read semantics) .power tokens') :=
  (calls .atom _ _ related).andThen fun base _ _ related =>
    calls (.powerTail base) _ _ (parallel.toAhead related)

theorem follows_powerTail (base : V) :
    (step semantics reader (.powerTail base) tokens).Follows behind marker
      (step semantics (read semantics) (.powerTail base) tokens') := by
  have front := parallel.skipSpaces related
  simp only [step]
  generalize skipSpaces tokens = tokens, skipSpaces tokens' = tokens' at front
  cases front with
  | nil ended => exact .value _ ended
  | @cons token _ _ whole operand _ =>
      cases token with
      | caret =>
          exact (calls .power _ _ (operand rfl)).andThen
            fun exponent _ _ related => .compute _ related
      | _ => exact .value _ whole

omit related in
theorem follows_glued (value : V) (related : behind tokens tokens') :
    (step semantics reader (.glued value) tokens).Follows behind marker
      (step semantics (read semantics) (.glued value) tokens') := by
  simp only [step, parallel.atEnd related]
  split
  · exact .value _ related
  · exact (calls .atom _ _ (parallel.toAhead related)).andThen
      fun factor _ _ related => .compute _ related

omit related in
theorem follows_literalTail (text : String)
    (whole : behind (.number text :: tokens) (.number text :: tokens')) :
    (literalTail semantics reader text tokens).Follows behind marker
      (literalTail semantics (read semantics) text tokens') := by
  obtain ⟨sameSpelling, left⟩ := parallel.spelling whole
  simp only [literalTail, literal, sameSpelling]
  cases Decimal.Numeral.read? (spelling text tokens').1.toList with
  | none => exact .malformed (.unexpected _ _ _)
  | some numeral =>
      exact (Reading.Follows.compute _ left).andThen fun value _ _ related =>
        calls (.glued value) _ _ related

theorem follows_atom
    (groups : ∀ rest rest', behind (.opening :: rest) (.opening :: rest') →
      (reader .group rest).Follows behind marker (read semantics .group rest')) :
    (step semantics reader .atom tokens).Follows behind marker
      (step semantics (read semantics) .atom tokens') := by
  have front := parallel.skipSpaces related
  simp only [step]
  generalize skipSpaces tokens = tokens, skipSpaces tokens' = tokens' at front
  cases front with
  | nil ended => exact .value _ ended
  | @cons token rest rest' whole operand value =>
      cases token with
      | number text => exact follows_literalTail parallel calls text whole
      | exp | ln =>
          exact (calls .atom _ _ (operand rfl)).andThen
            fun argument _ _ related => .compute _ related
      | euler => exact calls (.glued semantics.euler) _ _ (value rfl (by simp))
      | imaginaryUnit => exact calls (.glued semantics.imaginaryUnit) _ _ (value rfl (by simp))
      | opening =>
          exact (groups rest rest' whole).andThen
            fun value _ _ related => calls (.glued value) _ _ related
      | minus =>
          exact (calls .atom _ _ (operand rfl)).andThen
            fun value _ _ related => calls (.glued (semantics.neg value)) _ _ related
      | _ => exact .malformed (.unexpected _ _ _)

omit related in
theorem step_follows
    (groups : ∀ rest rest', behind (.opening :: rest) (.opening :: rest') →
      (reader .group rest).Follows behind marker (read semantics .group rest'))
    (rule : Rule V) (taken : rule.Takes behind ahead tokens tokens') :
    (step semantics reader rule tokens).Follows behind marker
      (step semantics (read semantics) rule tokens') := by
  cases rule with
  | group => exact follows_group parallel calls taken
  | sum => exact follows_sum parallel calls taken
  | sumTail left => exact follows_sumTail parallel calls taken left
  | product => exact follows_product parallel calls taken
  | productTail left => exact follows_productTail parallel calls taken left
  | power => exact follows_power parallel calls taken
  | powerTail base => exact follows_powerTail parallel calls taken base
  | atom => exact follows_atom parallel calls taken groups
  | glued value => exact follows_glued parallel calls value taken

end Step

variable {semantics : Semantics V ε}

/-- Related lists are read in the same way, if the groups are whose parentheses open at the same
place in both. -/
theorem read_beside (parallel : Parallel behind ahead)
    (groups : ∀ rest rest', behind (.opening :: rest) (.opening :: rest') →
      ahead rest rest' ∨ (read semantics .group rest).Beside behind (read semantics .group rest'))
    (rule : Rule V) {tokens tokens' : List Token} (taken : rule.Takes behind ahead tokens tokens') :
    (read semantics rule tokens).Beside behind (read semantics rule tokens') := by
  refine read_induction_marked
    (fun rule tokens reading => ∀ tokens', rule.Takes behind ahead tokens tokens' →
      reading.Beside behind (read semantics rule tokens')) ?_ rule tokens tokens' taken
  intro marker reader made rule tokens
  have calls : ∀ rule tokens tokens', Rule.Takes behind ahead rule tokens tokens' →
      (reader rule tokens).Follows behind marker (read semantics rule tokens') :=
    fun rule tokens tokens' taken => (made rule tokens).imp id fun holds => holds.2 tokens' taken
  have inner : ∀ rest rest', behind (.opening :: rest) (.opening :: rest') →
      (reader .group rest).Follows behind marker (read semantics .group rest') := by
    intro rest rest' whole
    rcases groups rest rest' whole with related | beside
    · exact calls .group _ _ related
    · rcases made .group rest with marked | ⟨same, _⟩
      · exact .inl marked
      · rw [same]
        exact .inr beside
  -- a step that is not marked has made only calls that read, so it follows the grammar
  by_cases marked : step semantics reader rule tokens = .error marker
  · exact .inl marked
  · refine .inr fun tokens' taken => ?_
    rw [read_eq_step]
    exact (step_follows parallel calls inner rule taken).resolve_left marked

/-- Whole lists that are read side by side have the same outcome. -/
theorem sameOutcome_of_beside (ends : ∀ {tokens tokens'}, behind tokens tokens' →
      (tokens = [] ↔ tokens' = [])) {tokens tokens' : List Token}
    (beside : (read semantics .group (tokens ++ [Token.closing])).Beside behind
      (read semantics .group (tokens' ++ [Token.closing]))) :
    SameOutcome Eq (parse semantics tokens) (parse semantics tokens') := by
  unfold parse
  generalize read semantics .group (tokens ++ [Token.closing]) = reading at beside
  generalize read semantics .group (tokens' ++ [Token.closing]) = reading' at beside
  cases beside with
  | @ok result result' holds =>
      obtain ⟨value, rest⟩ := result
      obtain ⟨value', rest'⟩ := result'
      obtain ⟨rfl, related⟩ := holds
      have same := ends related
      cases rest with
      | nil =>
          obtain rfl := same.mp rfl
          exact .ok rfl
      | cons token rest =>
          obtain ⟨token', rest', rfl⟩ := List.exists_cons_of_ne_nil (mt same.mpr (by simp))
          exact .malformed (.strayClosing _ _)
  | arithmetic error => exact .arithmetic error
  | malformed alike => exact .malformed alike

end Grammar

end ComplexCalculator
