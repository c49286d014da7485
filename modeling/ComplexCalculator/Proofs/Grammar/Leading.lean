import Mathlib
import ComplexCalculator.Proofs.Grammar.Locality
import ComplexCalculator.Proofs.Grammar.Placement
import ComplexCalculator.Proofs.Grammar.Spacing
import ComplexCalculator.Proofs.Grammar.Terms

/-!
What is read of one list is read of another.

`Leading` says what a relation between lists of tokens must satisfy so that every value read of the
first list is read of the second one as well: wherever a rule looks, both lists show the same token,
or a number that the second list has in parentheses. At some places, where a sum begins or goes on,
the lists may show different signs, as long as the sums there are the same. Nothing is said of
failures.
-/

namespace ComplexCalculator.Grammar

open Decimal (Numeral)

variable {V ε : Type}

/-- A value that is read here is read there, with related tokens left. -/
def Reading.Leads (related : List Token → List Token → Prop) (reading reading' : Reading V ε) :
    Prop :=
  ∀ value rest, reading = .ok (value, rest) →
    ∃ rest', reading' = .ok (value, rest') ∧ related rest rest'

namespace Reading.Leads

variable {related : List Token → List Token → Prop} {reading reading' : Reading V ε}
variable {next next' : V → List Token → Reading V ε} {rest rest' : List Token}

theorem value (value : V) (holds : related rest rest') :
    Reading.Leads related (.ok (value, rest) : Reading V ε) (.ok (value, rest')) := by
  intro found left same
  cases same
  exact ⟨rest', rfl, holds⟩

theorem failed {failure : Failure ε} :
    Reading.Leads related (.error failure : Reading V ε) reading' := nofun

theorem andThen (leads : reading.Leads related reading')
    (following : ∀ value rest rest', related rest rest' →
      (next value rest).Leads related (next' value rest')) :
    (reading.andThen next).Leads related (reading'.andThen next') := by
  intro value rest found
  cases reading with
  | error failure => cases found
  | ok result =>
      obtain ⟨middle, same, holds⟩ := leads result.1 result.2 rfl
      rw [same]
      exact following _ _ _ holds value rest found

theorem compute (result : Except ε V) (holds : related rest rest') :
    (compute result rest).Leads related (Grammar.compute result rest') := by
  cases result with
  | ok found => exact .value found holds
  | error error => exact .failed

end Reading.Leads

/-- Lists that begin with the same visible token, or end. A number that has no exponent may stand in
parentheses in the second list. -/
inductive SameStart (behind operand : List Token → List Token → Prop) :
    List Token → List Token → Prop where
  | nil : SameStart behind operand [] []
  | token {token : Token} {rest rest' : List Token} (visible : token ≠ .space)
      (other : ∀ text, token ≠ .number text) (after : behind rest rest')
      (awaits : AwaitsOperand token → operand rest rest') :
      SameStart behind operand (token :: rest) (token :: rest')
  | number (text : String) {rest rest' : List Token}
      (same : (spelling text rest).1 = (spelling text rest').1)
      (after : behind (spelling text rest).2 (spelling text rest').2) :
      SameStart behind operand (.number text :: rest) (.number text :: rest')
  | enclosed (text : String) {rest rest' : List Token} (alone : ¬ BeginsExponent rest)
      (after : behind rest rest') :
      SameStart behind operand (.number text :: rest)
        (.opening :: .number text :: .closing :: rest')

/-- Lists of which the second has the values of the first: `behind` relates them where a value may
have ended, `operand` where an operand is to follow, `turned` where they show different signs. -/
structure Leading (semantics : Semantics V ε)
    (behind operand turned : List Token → List Token → Prop) : Prop where
  toBehind : ∀ {tokens tokens'}, operand tokens tokens' → behind tokens tokens'
  atEnd : ∀ {tokens tokens'}, behind tokens tokens' → atEnd tokens = atEnd tokens'
  skipSpaces : ∀ {tokens tokens'}, behind tokens tokens' →
    turned (skipSpaces tokens) (skipSpaces tokens') ∨
      SameStart behind operand (skipSpaces tokens) (skipSpaces tokens') ∧
        operand (skipSpaces tokens) (skipSpaces tokens')
  group : ∀ {tokens tokens'}, behind tokens tokens' →
    (read semantics .group tokens).Leads behind (read semantics .group tokens') ∨
      SameStart behind operand (skipSpacesAndPluses tokens) (skipSpacesAndPluses tokens') ∧
        behind (skipSpacesAndPluses tokens) (skipSpacesAndPluses tokens')
  signs : ∀ {tokens tokens'}, turned tokens tokens' → behind tokens tokens' ∧
    ∃ first second rest rest',
      tokens = Token.ofSign first :: rest ∧ tokens' = Token.ofSign second :: rest'
  sum : ∀ {tokens tokens'}, turned tokens tokens' →
    (read semantics .sum tokens).Leads behind (read semantics .sum tokens')
  sumTail : ∀ left {tokens tokens'}, turned tokens tokens' →
    (read semantics (.sumTail left) tokens).Leads behind (read semantics (.sumTail left) tokens')
  atom : ∀ {tokens tokens'}, operand tokens tokens' →
    turned (Grammar.skipSpaces tokens) (Grammar.skipSpaces tokens') →
    ∀ result, read semantics .atom tokens ≠ .ok result

/-- The lists that a rule may be called on. -/
def Rule.Admits (behind operand : List Token → List Token → Prop) :
    Rule V → List Token → List Token → Prop
  | .product | .power | .atom => operand
  | _ => behind

section Spaces

variable (semantics : Semantics V ε) (tokens : List Token)

theorem read_sumTail_skipSpaces (left : V) :
    read semantics (.sumTail left) tokens = read semantics (.sumTail left) (skipSpaces tokens) := by
  rw [read_eq_step, read_eq_step, step, step, skipSpaces_skipSpaces]

theorem read_sum_skipSpaces :
    read semantics .sum tokens = read semantics .sum (skipSpaces tokens) := by
  rw [read_eq_step, read_eq_step, step, step, skipSpaces_skipSpaces]

theorem read_atom_skipSpaces :
    read semantics .atom tokens = read semantics .atom (skipSpaces tokens) := by
  rw [read_eq_step, read_eq_step, step, step, skipSpaces_skipSpaces]

end Spaces

theorem skipSpaces_of_goesOn {tokens : List Token} (goesOn : atEnd tokens = false) :
    skipSpaces tokens = tokens := by
  cases tokens with
  | nil => rfl
  | cons token rest => exact skipSpaces_cons rest (by rintro rfl; contradiction)

theorem isAtom_number {semantics : Semantics V ε} {text : String} {numeral : Numeral} {value : V}
    (spelled : Numeral.read? text.toList = some numeral)
    (number : semantics.number numeral = .ok value) :
    IsAtom semantics [.number text] value where
  begins := rfl
  reads := by
    intro rest ends
    have plain := spelling_plain text (ne_euler_of_atEnd ends)
    rw [List.singleton_append, read_eq_step, step]
    simp only [skipSpaces, literal, plain, spelled, number, compute, Reading.andThen]
    exact read_glued_of_atEnd ends

section Step

variable {semantics : Semantics V ε} {behind operand turned : List Token → List Token → Prop}
variable {reader : Rule V → List Token → Reading V ε}
variable {tokens tokens' : List Token}

section Literals

variable (glued : ∀ value tokens tokens', behind tokens tokens' →
  (reader (.glued value) tokens).Leads behind (read semantics (.glued value) tokens'))

include glued

theorem leads_literalTail (text : String)
    (same : (spelling text tokens).1 = (spelling text tokens').1)
    (after : behind (spelling text tokens).2 (spelling text tokens').2) :
    (literalTail semantics reader text tokens).Leads behind
      (literalTail semantics (read semantics) text tokens') := by
  simp only [literalTail, literal, same]
  cases Numeral.read? (spelling text tokens').1.toList with
  | none => exact .failed
  | some numeral =>
      exact (Reading.Leads.compute _ after).andThen fun value _ _ related =>
        glued value _ _ related

/-- A number without an exponent is the same in parentheses. -/
theorem leads_enclosed (text : String) (alone : ¬ BeginsExponent tokens)
    (after : behind tokens tokens') :
    (literalTail semantics reader text tokens).Leads behind
      ((read semantics .group (.number text :: .closing :: tokens')).andThen fun value =>
        read semantics (.glued value)) := by
  simp only [literalTail, literal, spelling_of_not_begins text alone]
  cases spelled : Numeral.read? text.toList with
  | none => exact .failed
  | some numeral =>
      cases number : semantics.number numeral with
      | error error =>
          simp only [compute, number]
          exact .failed
      | ok value =>
          have group := (isAtom_number spelled number).isTerm.group (.closing tokens')
          rw [List.singleton_append, read_sumTail_closing] at group
          rw [group]
          simp only [compute, number]
          exact glued value _ _ after

end Literals

variable (calls : ∀ rule tokens tokens', rule.Admits behind operand tokens tokens' →
  (reader rule tokens).Leads behind (read semantics rule tokens'))

include calls in
theorem leads_factorTail (whole : operand tokens tokens') (left : V) :
    (factorTail semantics reader left tokens).Leads behind
      (factorTail semantics (read semantics) left tokens') := by
  refine (calls .atom _ _ whole).andThen fun factor _ _ related => ?_
  refine (Reading.Leads.compute _ related).andThen fun product _ _ related => ?_
  refine (calls (.glued product) _ _ related).andThen fun group _ _ related => ?_
  exact (calls (.powerTail group) _ _ related).andThen fun group _ _ related =>
    calls (.productTail group) _ _ related

theorem Leading.start_of_goesOn (leading : Leading semantics behind operand turned)
    (related : behind tokens tokens') (goesOn : Grammar.atEnd tokens = false) :
    operand tokens tokens' := by
  have goesOn' : Grammar.atEnd tokens' = false := leading.atEnd related ▸ goesOn
  have start := leading.skipSpaces related
  rw [skipSpaces_of_goesOn goesOn, skipSpaces_of_goesOn goesOn'] at start
  rcases start with turned | start
  · obtain ⟨-, first, second, rest, rest', rfl, -⟩ := leading.signs turned
    cases first <;> contradiction
  · exact start.2

variable (leading : Leading semantics behind operand turned)

include leading in
theorem leads_closeGroup (related : behind tokens tokens') (value : V) :
    (closeGroup value tokens : Reading V ε).Leads behind (closeGroup value tokens') := by
  rcases leading.skipSpaces related with turned | start
  · obtain ⟨-, first, second, rest, rest', front, -⟩ := leading.signs turned
    unfold closeGroup
    rw [front]
    cases first <;> exact .failed
  · obtain ⟨start, -⟩ := start
    unfold closeGroup
    generalize skipSpaces tokens = tokens, skipSpaces tokens' = tokens' at start
    cases start with
    | nil | number | enclosed => exact .failed
    | @token token _ _ _ _ after _ =>
        cases token with
        | closing => exact .value value after
        | _ => exact .failed

include calls leading

theorem leads_group (related : behind tokens tokens')
    (same : read semantics .group tokens = step semantics reader .group tokens) :
    (step semantics reader .group tokens).Leads behind (read semantics .group tokens') := by
  have close (rule : Rule V) {tokens tokens' : List Token}
      (admitted : rule.Admits behind operand tokens tokens') :
      ((reader rule tokens).andThen closeGroup).Leads behind
        ((read semantics rule tokens').andThen closeGroup) :=
    (calls rule _ _ admitted).andThen fun value _ _ related =>
      leads_closeGroup leading related value
  rcases leading.group related with leads | start
  · rwa [← same]
  · obtain ⟨start, whole⟩ := start
    rw [read_eq_step semantics _ tokens']
    simp only [step]
    generalize skipSpacesAndPluses tokens = tokens at start whole
    generalize skipSpacesAndPluses tokens' = tokens' at start whole
    cases start with
    | nil => exact .value _ whole
    | number | enclosed => exact close .sum whole
    | @token token _ _ _ _ after _ =>
        cases token with
        | closing => exact .value _ after
        | minus => exact close (.sumTail semantics.zero) whole
        | _ => exact close .sum whole

theorem leads_sum (related : behind tokens tokens')
    (same : read semantics .sum tokens = step semantics reader .sum tokens) :
    (step semantics reader .sum tokens).Leads behind (read semantics .sum tokens') := by
  have terms {tokens tokens' : List Token} (whole : operand tokens tokens') :
      ((reader .product tokens).andThen fun left => reader (.sumTail left)).Leads behind
        ((read semantics .product tokens').andThen fun left => read semantics (.sumTail left)) :=
    (calls .product _ _ whole).andThen fun left _ _ related => calls (.sumTail left) _ _ related
  rcases leading.skipSpaces related with turned | start
  · rw [← same, read_sum_skipSpaces, read_sum_skipSpaces semantics tokens']
    exact leading.sum turned
  · obtain ⟨start, whole⟩ := start
    rw [read_eq_step semantics _ tokens']
    simp only [step]
    generalize skipSpaces tokens = tokens, skipSpaces tokens' = tokens' at start whole
    have products := terms whole
    cases start with
    | nil | number | enclosed => exact products
    | @token token _ _ _ _ after _ =>
        cases token with
        | plus => exact calls .sum _ _ after
        | minus => exact calls (.sumTail semantics.zero) _ _ (leading.toBehind whole)
        | _ => exact products

theorem leads_sumTail (related : behind tokens tokens') (left : V)
    (same : read semantics (.sumTail left) tokens = step semantics reader (.sumTail left) tokens) :
    (step semantics reader (.sumTail left) tokens).Leads behind
      (read semantics (.sumTail left) tokens') := by
  rcases leading.skipSpaces related with turned | start
  · rw [← same, read_sumTail_skipSpaces, read_sumTail_skipSpaces semantics tokens']
    exact leading.sumTail left turned
  · obtain ⟨start, whole⟩ := start
    have whole := leading.toBehind whole
    rw [read_eq_step semantics _ tokens']
    simp only [step]
    generalize skipSpaces tokens = tokens, skipSpaces tokens' = tokens' at start whole
    cases start with
    | nil | number | enclosed => exact .value left whole
    | @token token _ _ _ _ after awaits =>
        cases token with
        | plus => exact (calls .sum _ _ after).andThen fun right _ _ related => .compute _ related
        | minus =>
            refine (calls .product _ _ (awaits (.inl rfl))).andThen fun right _ _ related => ?_
            exact (Reading.Leads.compute _ related).andThen fun difference _ _ related =>
              calls (.sumTail difference) _ _ related
        | _ => exact .value left whole

theorem leads_quotientTail (related : behind tokens tokens') (quotient : V) :
    (quotientTail semantics reader quotient tokens).Leads behind
      (quotientTail semantics (read semantics) quotient tokens') := by
  have factor {tokens tokens' : List Token} (whole : operand tokens tokens') :
      ((reader .product tokens).andThen fun right =>
          compute (semantics.mul quotient right)).Leads behind
        ((read semantics .product tokens').andThen fun right =>
          compute (semantics.mul quotient right)) :=
    (calls .product _ _ whole).andThen fun right _ _ related => .compute _ related
  unfold quotientTail termAfterQuotient
  rcases leading.skipSpaces related with turned | start
  · obtain ⟨whole, first, second, rest, rest', front, front'⟩ := leading.signs turned
    rw [front, front'] at whole ⊢
    cases first <;> cases second <;> exact .value quotient whole
  · obtain ⟨start, whole⟩ := start
    generalize skipSpaces tokens = tokens, skipSpaces tokens' = tokens' at start whole
    cases start with
    | nil => exact .value quotient (leading.toBehind whole)
    | number | enclosed => exact factor whole
    | @token token _ _ _ _ after awaits =>
        cases token with
        | star => exact factor (awaits (.inr (.inl rfl)))
        | slash => exact factor (awaits (.inr (.inr (.inl rfl))))
        | plus | minus | caret | closing | space => exact .value quotient (leading.toBehind whole)
        | _ => exact factor whole

theorem leads_productTail (related : behind tokens tokens') (left : V) :
    (step semantics reader (.productTail left) tokens).Leads behind
      (read semantics (.productTail left) tokens') := by
  rw [read_eq_step semantics _ tokens']
  simp only [step]
  rcases leading.skipSpaces related with turned | start
  · obtain ⟨whole, first, second, rest, rest', front, front'⟩ := leading.signs turned
    rw [front, front'] at whole ⊢
    cases first <;> cases second <;> exact .value left whole
  · obtain ⟨start, whole⟩ := start
    generalize skipSpaces tokens = tokens, skipSpaces tokens' = tokens' at start whole
    cases start with
    | nil => exact .value left (leading.toBehind whole)
    | number | enclosed => exact leads_factorTail calls whole left
    | @token token _ _ _ _ after awaits =>
        cases token with
        | star =>
            exact (calls .product _ _ (awaits (.inr (.inl rfl)))).andThen
              fun right _ _ related => .compute _ related
        | slash =>
            refine (calls .power _ _ (awaits (.inr (.inr (.inl rfl))))).andThen ?_
            intro divisor _ _ related
            exact (Reading.Leads.compute _ related).andThen fun quotient _ _ related =>
              leads_quotientTail calls leading related quotient
        | plus | minus | caret | closing | space => exact .value left (leading.toBehind whole)
        | _ => exact leads_factorTail calls whole left

theorem leads_powerTail (related : behind tokens tokens') (base : V) :
    (step semantics reader (.powerTail base) tokens).Leads behind
      (read semantics (.powerTail base) tokens') := by
  rw [read_eq_step semantics _ tokens']
  simp only [step]
  rcases leading.skipSpaces related with turned | start
  · obtain ⟨whole, first, second, rest, rest', front, front'⟩ := leading.signs turned
    rw [front, front'] at whole ⊢
    cases first <;> cases second <;> exact .value base whole
  · obtain ⟨start, whole⟩ := start
    have whole := leading.toBehind whole
    generalize skipSpaces tokens = tokens, skipSpaces tokens' = tokens' at start whole
    cases start with
    | nil | number | enclosed => exact .value base whole
    | @token token _ _ _ _ after awaits =>
        cases token with
        | caret =>
            exact (calls .power _ _ (awaits (.inr (.inr (.inr (.inl rfl)))))).andThen
              fun exponent _ _ related => .compute _ related
        | _ => exact .value base whole

theorem leads_glued (related : behind tokens tokens') (value : V) :
    (step semantics reader (.glued value) tokens).Leads behind
      (read semantics (.glued value) tokens') := by
  rw [read_eq_step semantics _ tokens']
  simp only [step, (leading.atEnd related).symm]
  split
  · exact .value value related
  · rename_i goesOn
    have whole := leading.start_of_goesOn related (by simpa using goesOn)
    exact (calls .atom _ _ whole).andThen fun factor _ _ related => .compute _ related

theorem leads_atom (whole : operand tokens tokens')
    (same : read semantics .atom tokens = step semantics reader .atom tokens) :
    (step semantics reader .atom tokens).Leads behind (read semantics .atom tokens') := by
  rcases leading.skipSpaces (leading.toBehind whole) with turned | start
  · rw [← same]
    exact fun value rest found => absurd found (leading.atom whole turned _)
  · obtain ⟨start, whole⟩ := start
    have glued (value : V) := calls (.glued value)
    have whole := leading.toBehind whole
    rw [read_eq_step semantics _ tokens']
    simp only [step]
    generalize skipSpaces tokens = tokens, skipSpaces tokens' = tokens' at start whole
    cases start with
    | nil => exact .value _ whole
    | number text same after => exact leads_literalTail glued text same after
    | enclosed text alone after => exact leads_enclosed glued text alone after
    | @token token _ _ _ other after awaits =>
        cases token with
        | number text => exact absurd rfl (other text)
        | exp | ln =>
            exact (calls .atom _ _ (awaits (by simp [AwaitsOperand]))).andThen
              fun argument _ _ related => .compute _ related
        | euler => exact glued semantics.euler _ _ after
        | imaginaryUnit => exact glued semantics.imaginaryUnit _ _ after
        | opening =>
            exact (calls .group _ _ after).andThen fun value _ _ related => glued value _ _ related
        | minus =>
            exact (calls .atom _ _ (awaits (.inl rfl))).andThen
              fun value _ _ related => glued (semantics.neg value) _ _ related
        | _ => exact .failed

end Step

variable {semantics : Semantics V ε} {behind operand turned : List Token → List Token → Prop}

theorem read_leads (leading : Leading semantics behind operand turned) (rule : Rule V)
    (tokens tokens' : List Token) (admitted : rule.Admits behind operand tokens tokens') :
    (read semantics rule tokens).Leads behind (read semantics rule tokens') := by
  refine read_induction_step
    (fun rule tokens reading => ∀ tokens', rule.Admits behind operand tokens tokens' →
      reading.Leads behind (read semantics rule tokens')) ?_ ?_ rule tokens tokens' admitted
  · exact fun _ _ => ⟨.error (.malformed .unclosed), fun _ _ => .failed⟩
  · intro reader calls rule tokens same tokens' admitted
    have calls : ∀ rule tokens tokens', rule.Admits behind operand tokens tokens' →
        (reader rule tokens).Leads behind (read semantics rule tokens') :=
      fun rule tokens tokens' => calls rule tokens tokens'
    cases rule with
    | group => exact leads_group calls leading admitted same
    | sum => exact leads_sum calls leading admitted same
    | sumTail left => exact leads_sumTail calls leading admitted left same
    | product =>
        rw [read_eq_step semantics _ tokens']
        exact (calls .power _ _ admitted).andThen fun left _ _ related =>
          calls (.productTail left) _ _ related
    | productTail left => exact leads_productTail calls leading admitted left
    | power =>
        rw [read_eq_step semantics _ tokens']
        exact (calls .atom _ _ admitted).andThen fun base _ _ related =>
          calls (.powerTail base) _ _ related
    | powerTail base => exact leads_powerTail calls leading admitted base
    | atom => exact leads_atom calls leading admitted same
    | glued value => exact leads_glued calls leading admitted value

/-- An expression has the value of another one that leads to it. -/
theorem parse_leads (leading : Leading semantics behind operand turned)
    (ends : ∀ {tokens}, behind [] tokens → tokens = []) {tokens tokens' : List Token}
    (related : behind (tokens ++ [.closing]) (tokens' ++ [.closing])) {value : V}
    (parsed : parse semantics tokens = .ok value) : parse semantics tokens' = .ok value := by
  have group := read_group_of_parse parsed []
  obtain ⟨rest, found, left⟩ := read_leads leading .group _ _ related value [] group
  obtain rfl := ends left
  rw [parse, found]

end ComplexCalculator.Grammar
