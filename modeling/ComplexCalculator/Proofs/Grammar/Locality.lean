import ComplexCalculator.Proofs.Grammar.Acceptance

/-!
What follows a group does not matter.

A reading that stops before the end of its tokens has looked at nothing behind them, as long as
they end with a closing parenthesis: no exponent part reaches over it. A group may read that
parenthesis as well, if it is its own. Hence a group that is read up to the end of the tokens is
read in the same way wherever it stands.
-/

namespace ComplexCalculator.Grammar

variable {V ε : Type}

/-- The reading leaves an end of its tokens. If anything is left, then another reading, with
`more` behind the tokens, gives the same value. -/
def Reading.Local (more tokens : List Token) (reading extended : Reading V ε) : Prop :=
  ∀ value rest, reading = .ok (value, rest) →
    rest <:+ tokens ∧ (rest ≠ [] → extended = .ok (value, rest ++ more))

/-- A group may also leave nothing. -/
def Reading.LocalGroup (more tokens : List Token) (reading extended : Reading V ε) : Prop :=
  ∀ value rest, reading = .ok (value, rest) →
    rest <:+ tokens ∧ extended = .ok (value, rest ++ more)

def Rule.Local (semantics : Semantics V ε) (more : List Token) :
    Rule V → List Token → Reading V ε → Prop
  | .group, tokens, reading => Ended tokens → tokens ≠ [] →
      reading.LocalGroup more tokens (read semantics .group (tokens ++ more))
  | rule, tokens, reading => Ended tokens →
      reading.Local more tokens (read semantics rule (tokens ++ more))

section Tokens

variable {token : Token} {tokens rest more : List Token}

theorem ended_nil : Ended [] := by
  intro token last
  contradiction

theorem Ended.of_suffix (ended : Ended tokens) (suffix : rest <:+ tokens) : Ended rest := by
  obtain ⟨front, rfl⟩ := suffix
  intro token last
  exact ended token (by simpa [List.getLast?_append] using Or.inl last)

theorem skipSpaces_suffix (tokens : List Token) : skipSpaces tokens <:+ tokens := by
  fun_induction skipSpaces tokens with
  | case1 rest ih => exact ih.trans (List.suffix_cons _ _)
  | case2 rest => exact List.suffix_rfl

theorem skipSpacesAndPluses_suffix (tokens : List Token) :
    skipSpacesAndPluses tokens <:+ tokens := by
  fun_induction skipSpacesAndPluses tokens with
  | case1 rest ih => exact ih.trans (List.suffix_cons _ _)
  | case2 rest ih => exact ih.trans (List.suffix_cons _ _)
  | case3 rest => exact List.suffix_rfl

theorem skipSpaces_append (front : skipSpaces tokens = token :: rest) (more : List Token) :
    skipSpaces (tokens ++ more) = token :: (rest ++ more) := by
  fun_induction skipSpaces tokens with
  | case1 tokens ih => exact ih front
  | case2 tokens notSpace =>
      subst front
      exact skipSpaces_cons _ (fun space => notSpace rest (by rw [space]))

theorem skipSpacesAndPluses_append (front : skipSpacesAndPluses tokens = token :: rest)
    (more : List Token) :
    skipSpacesAndPluses (tokens ++ more) = token :: (rest ++ more) := by
  fun_induction skipSpacesAndPluses tokens with
  | case1 tokens ih => exact ih front
  | case2 tokens ih => exact ih front
  | case3 tokens notSpace notPlus =>
      subst front
      rw [List.cons_append]
      unfold skipSpacesAndPluses
      split
      · rename_i same
        cases same
        exact absurd rfl (notSpace rest)
      · rename_i same
        cases same
        exact absurd rfl (notPlus rest)
      · rfl

theorem atEnd_append (nonempty : tokens ≠ []) (more : List Token) :
    atEnd (tokens ++ more) = atEnd tokens := by
  cases tokens with
  | nil => contradiction
  | cons token rest => rfl

end Tokens

theorem spelling_suffix (text : String) (tokens : List Token) :
    (spelling text tokens).2 <:+ tokens := by
  unfold spelling
  split
  · split
    · exact ⟨[_, _, _], rfl⟩
    · exact List.suffix_rfl
  · split
    · exact ⟨[_, _, _], rfl⟩
    · exact List.suffix_rfl
  · exact List.suffix_rfl

/-- Three tokens decide whether there is an exponent part. -/
theorem spelling_three (text : String) (first second third : Token) :
    (∃ spelled, ∀ rest, spelling text (first :: second :: third :: rest) = (spelled, rest)) ∨
      ∀ rest, spelling text (first :: second :: third :: rest) =
        (text, first :: second :: third :: rest) := by
  cases first with
  | euler =>
      cases second with
      | plus | minus =>
          cases third with
          | number exponent =>
              by_cases digits : exponent.toList.all Char.isDigit
              · exact .inl ⟨_, fun rest => if_pos digits⟩
              · exact .inr fun rest => if_neg digits
          | _ => exact .inr fun _ => rfl
      | _ => exact .inr fun _ => rfl
  | _ => exact .inr fun _ => rfl

theorem spelling_append {tokens : List Token} (text : String) (ended : Ended tokens)
    (nonempty : tokens ≠ []) (more : List Token) :
    spelling text (tokens ++ more) =
      ((spelling text tokens).1, (spelling text tokens).2 ++ more) := by
  match tokens with
  | [] => contradiction
  | [token] =>
      obtain rfl := ended token rfl
      rfl
  | [first, second] =>
      obtain rfl := ended second rfl
      cases first <;> rfl
  | first :: second :: third :: rest =>
      simp only [List.cons_append]
      rcases spelling_three text first second third with spelled | spelled
      · obtain ⟨whole, spelled⟩ := spelled
        rw [spelled, spelled]
      · rw [spelled, spelled]
        rfl

theorem literal_append {text : String} {tokens rest : List Token} {numeral : Decimal.Numeral}
    (found : literal text tokens = .ok (numeral, rest)) (ended : Ended tokens)
    (nonempty : tokens ≠ []) (more : List Token) :
    literal text (tokens ++ more) = .ok (numeral, rest ++ more) := by
  simp only [literal, spelling_append text ended nonempty more] at found ⊢
  split at found
  · cases found
    rfl
  · contradiction

namespace Reading.Local

variable {more tokens rest : List Token} {reading extended other : Reading V ε}

theorem done {value : V} :
    Reading.Local more tokens (.ok (value, tokens) : Reading V ε) (.ok (value, tokens ++ more)) := by
  intro found rest same
  cases same
  exact ⟨List.suffix_rfl, fun _ => rfl⟩

/-- Nothing is said where no value is read. -/
theorem failed {failure : Failure ε} :
    Reading.Local more tokens (.error failure : Reading V ε) other := by
  intro value rest found
  contradiction

theorem compute {result : Except ε V} :
    Reading.Local more tokens (Grammar.compute result tokens)
      (Grammar.compute result (tokens ++ more)) := by
  cases result with
  | ok value => exact done
  | error error => exact failed

theorem along (reads : reading.Local more rest extended) (suffix : rest <:+ tokens) :
    reading.Local more tokens extended :=
  fun value left found =>
    ⟨(reads value left found).1.trans suffix, (reads value left found).2⟩

/-- Nothing is left of no tokens, so nothing is said of the other reading. -/
theorem empty (reads : reading.Local more [] extended) : reading.Local more tokens other := by
  intro value rest found
  obtain rfl := List.suffix_nil.mp (reads value rest found).1
  exact ⟨List.nil_suffix, fun left => absurd rfl left⟩

theorem andThen {next next' : V → List Token → Reading V ε}
    (reads : reading.Local more tokens extended) (ended : Ended tokens)
    (following : ∀ value rest, Ended rest →
      (next value rest).Local more rest (next' value (rest ++ more))) :
    (reading.andThen next).Local more tokens (extended.andThen next') := by
  intro value rest found
  cases reading with
  | error failure => cases found
  | ok result =>
      obtain ⟨first, middle⟩ := result
      obtain ⟨suffix, onward⟩ := reads first middle rfl
      obtain ⟨suffix', onward'⟩ := following first middle (ended.of_suffix suffix) value rest found
      refine ⟨suffix'.trans suffix, fun left => ?_⟩
      have middleLeft : middle ≠ [] := by
        rintro rfl
        exact left (List.suffix_nil.mp suffix')
      rw [onward middleLeft]
      exact onward' left

theorem close (reads : reading.Local more tokens extended) :
    (reading.andThen closeGroup).LocalGroup more tokens (extended.andThen closeGroup) := by
  intro value rest found
  cases reading with
  | error failure => cases found
  | ok result =>
      obtain ⟨first, middle⟩ := result
      obtain ⟨suffix, onward⟩ := reads first middle rfl
      have closed : skipSpaces middle = .closing :: rest ∧ first = value := by
        change closeGroup first middle = _ at found
        unfold closeGroup at found
        split at found
        · cases found
          exact ⟨by assumption, rfl⟩
        · contradiction
        · contradiction
      obtain ⟨front, rfl⟩ := closed
      have behind : rest <:+ middle :=
        (List.suffix_cons .closing rest).trans (front ▸ skipSpaces_suffix middle)
      have middleLeft : middle ≠ [] := by
        rintro rfl
        contradiction
      refine ⟨behind.trans suffix, ?_⟩
      rw [onward middleLeft]
      change closeGroup first (middle ++ more) = _
      unfold closeGroup
      rw [skipSpaces_append front]

end Reading.Local

theorem Reading.LocalGroup.andThen {more tokens : List Token} {reading extended : Reading V ε}
    {next next' : V → List Token → Reading V ε}
    (reads : reading.LocalGroup more tokens extended) (ended : Ended tokens)
    (following : ∀ value rest, Ended rest →
      (next value rest).Local more rest (next' value (rest ++ more))) :
    (reading.andThen next).Local more tokens (extended.andThen next') :=
  Reading.Local.andThen
    (fun value rest found => ⟨(reads value rest found).1, fun _ => (reads value rest found).2⟩)
    ended following

section Step

variable {semantics : Semantics V ε} {more : List Token}
variable {reader : Rule V → List Token → Reading V ε}
variable (calls : ∀ rule tokens, Rule.Local semantics more rule tokens (reader rule tokens))
variable (tokens : List Token)

include calls

theorem local_group :
    Rule.Local semantics more .group tokens (step semantics reader .group tokens) := by
  intro ended nonempty
  have suffix := skipSpacesAndPluses_suffix tokens
  have endedRest := ended.of_suffix suffix
  have left := ended.skipSpacesAndPluses_ne_nil nonempty
  rw [read_eq_step]
  simp only [step]
  cases front : skipSpacesAndPluses tokens with
  | nil => exact absurd front left
  | cons token rest =>
      rw [front] at suffix endedRest
      rw [skipSpacesAndPluses_append front more]
      cases token with
      | closing =>
          intro value rest found
          cases found
          exact ⟨(List.suffix_cons _ _).trans suffix, rfl⟩
      | minus =>
          exact ((calls (.sumTail semantics.zero) (.minus :: rest) endedRest).along suffix).close
      | _ => exact ((calls .sum _ endedRest).along suffix).close

theorem local_sum : Rule.Local semantics more .sum tokens (step semantics reader .sum tokens) := by
  intro ended
  have terms (tokens : List Token) (ended : Ended tokens) :
      Reading.Local more tokens
        ((reader .product tokens).andThen fun left => reader (.sumTail left))
        ((read semantics .product (tokens ++ more)).andThen fun left =>
          read semantics (.sumTail left)) :=
    (calls .product tokens ended).andThen ended fun left rest ended =>
      calls (.sumTail left) rest ended
  have suffix := skipSpaces_suffix tokens
  rw [read_eq_step]
  simp only [step]
  cases front : skipSpaces tokens with
  | nil => exact (terms [] ended_nil).empty
  | cons token rest =>
      rw [front] at suffix
      rw [skipSpaces_append front more]
      refine Reading.Local.along ?_ suffix
      have endedRest := ended.of_suffix suffix
      cases token with
      | plus => exact (calls .sum rest endedRest.tail).along (List.suffix_cons _ _)
      | minus => exact calls (.sumTail semantics.zero) (.minus :: rest) endedRest
      | _ => exact terms _ endedRest

theorem local_sumTail (left : V) :
    Rule.Local semantics more (.sumTail left) tokens
      (step semantics reader (.sumTail left) tokens) := by
  intro ended
  have suffix := skipSpaces_suffix tokens
  rw [read_eq_step]
  simp only [step]
  cases front : skipSpaces tokens with
  | nil => exact Reading.Local.done.empty
  | cons token rest =>
      rw [front] at suffix
      rw [skipSpaces_append front more]
      refine Reading.Local.along ?_ suffix
      have endedRest := ended.of_suffix suffix
      cases token with
      | plus =>
          refine Reading.Local.along ?_ (List.suffix_cons _ _)
          exact (calls .sum rest endedRest.tail).andThen endedRest.tail
            fun right rest _ => .compute
      | minus =>
          refine Reading.Local.along ?_ (List.suffix_cons _ _)
          refine (calls .product rest endedRest.tail).andThen endedRest.tail ?_
          intro right rest ended
          exact Reading.Local.compute.andThen ended fun difference rest ended =>
            calls (.sumTail difference) rest ended
      | _ => exact .done

theorem local_product :
    Rule.Local semantics more .product tokens (step semantics reader .product tokens) := by
  intro ended
  rw [read_eq_step]
  exact (calls .power tokens ended).andThen ended fun left rest ended =>
    calls (.productTail left) rest ended

/-- What follows a quotient is found behind spaces. -/
theorem local_quotientTail (quotient : V) (ended : Ended tokens) :
    (quotientTail semantics reader quotient tokens).Local more tokens
      (quotientTail semantics (read semantics) quotient (tokens ++ more)) := by
  have factor (tokens : List Token) (ended : Ended tokens) :
      Reading.Local more tokens
        ((reader .product tokens).andThen fun right => compute (semantics.mul quotient right))
        ((read semantics .product (tokens ++ more)).andThen fun right =>
          compute (semantics.mul quotient right)) :=
    (calls .product tokens ended).andThen ended fun right rest _ => .compute
  have suffix := skipSpaces_suffix tokens
  unfold quotientTail termAfterQuotient
  cases front : skipSpaces tokens with
  | nil => exact Reading.Local.done.empty
  | cons token rest =>
      rw [front] at suffix
      rw [skipSpaces_append front more]
      refine Reading.Local.along ?_ suffix
      have endedRest := ended.of_suffix suffix
      cases token with
      | star | slash => exact (factor rest endedRest.tail).along (List.suffix_cons _ _)
      | plus | minus | caret | closing | space => exact .done
      | _ => exact factor _ endedRest

/-- A product that goes on behind a space. -/
theorem local_factorTail (left : V) (ended : Ended tokens) :
    (factorTail semantics reader left tokens).Local more tokens
      (factorTail semantics (read semantics) left (tokens ++ more)) := by
  refine (calls .atom tokens ended).andThen ended fun factor rest ended => ?_
  refine Reading.Local.compute.andThen ended fun product rest ended => ?_
  refine (calls (.glued product) rest ended).andThen ended fun group rest ended => ?_
  refine (calls (.powerTail group) rest ended).andThen ended fun group rest ended => ?_
  exact calls (.productTail group) rest ended

theorem local_productTail (left : V) :
    Rule.Local semantics more (.productTail left) tokens
      (step semantics reader (.productTail left) tokens) := by
  intro ended
  have suffix := skipSpaces_suffix tokens
  rw [read_eq_step]
  simp only [step]
  cases front : skipSpaces tokens with
  | nil => exact Reading.Local.done.empty
  | cons token rest =>
      rw [front] at suffix
      rw [skipSpaces_append front more]
      refine Reading.Local.along ?_ suffix
      have endedRest := ended.of_suffix suffix
      cases token with
      | star =>
          refine Reading.Local.along ?_ (List.suffix_cons _ _)
          exact (calls .product rest endedRest.tail).andThen endedRest.tail
            fun right rest _ => .compute
      | slash =>
          refine Reading.Local.along ?_ (List.suffix_cons _ _)
          refine (calls .power rest endedRest.tail).andThen endedRest.tail ?_
          intro divisor rest ended
          exact Reading.Local.compute.andThen ended fun quotient rest ended =>
            local_quotientTail calls rest quotient ended
      | plus | minus | caret | closing | space => exact .done
      | _ => exact local_factorTail calls _ left endedRest

theorem local_power :
    Rule.Local semantics more .power tokens (step semantics reader .power tokens) := by
  intro ended
  rw [read_eq_step]
  exact (calls .atom tokens ended).andThen ended fun base rest ended =>
    calls (.powerTail base) rest ended

theorem local_powerTail (base : V) :
    Rule.Local semantics more (.powerTail base) tokens
      (step semantics reader (.powerTail base) tokens) := by
  intro ended
  have suffix := skipSpaces_suffix tokens
  rw [read_eq_step]
  simp only [step]
  cases front : skipSpaces tokens with
  | nil => exact Reading.Local.done.empty
  | cons token rest =>
      rw [front] at suffix
      rw [skipSpaces_append front more]
      refine Reading.Local.along ?_ suffix
      have endedRest := ended.of_suffix suffix
      cases token with
      | caret =>
          refine Reading.Local.along ?_ (List.suffix_cons _ _)
          exact (calls .power rest endedRest.tail).andThen endedRest.tail
            fun exponent rest _ => .compute
      | _ => exact .done

theorem local_glued (value : V) :
    Rule.Local semantics more (.glued value) tokens
      (step semantics reader (.glued value) tokens) := by
  intro ended
  rw [read_eq_step]
  simp only [step]
  by_cases nonempty : tokens = []
  · subst nonempty
    exact Reading.Local.done.empty
  · rw [atEnd_append nonempty]
    split
    · exact .done
    · exact (calls .atom tokens ended).andThen ended fun factor rest _ => .compute

theorem local_literalTail (text : String) (ended : Ended (.number text :: tokens)) :
    (literalTail semantics reader text tokens).Local more tokens
      (literalTail semantics (read semantics) text (tokens ++ more)) := by
  unfold literalTail
  cases found : literal text tokens with
  | error error => exact .failed
  | ok result =>
      obtain ⟨numeral, rest⟩ := result
      rw [literal_append found ended.tail (ended.tail_ne_nil (by simp)) more]
      have suffix : rest <:+ tokens := literal_rest found ▸ spelling_suffix text tokens
      refine Reading.Local.along ?_ suffix
      exact Reading.Local.compute.andThen (ended.tail.of_suffix suffix) fun value rest ended =>
        calls (.glued value) rest ended

theorem local_atom : Rule.Local semantics more .atom tokens (step semantics reader .atom tokens) := by
  intro ended
  have suffix := skipSpaces_suffix tokens
  rw [read_eq_step]
  simp only [step]
  cases front : skipSpaces tokens with
  | nil => exact Reading.Local.done.empty
  | cons token rest =>
      rw [front] at suffix
      rw [skipSpaces_append front more]
      have endedRest := ended.of_suffix suffix
      refine Reading.Local.along ?_ ((List.suffix_cons _ _).trans suffix)
      cases token with
      | number text => exact local_literalTail calls rest text endedRest
      | exp | ln =>
          exact (calls .atom rest endedRest.tail).andThen endedRest.tail
            fun argument rest _ => .compute
      | euler => exact calls (.glued semantics.euler) rest endedRest.tail
      | imaginaryUnit => exact calls (.glued semantics.imaginaryUnit) rest endedRest.tail
      | opening =>
          have group := calls .group rest endedRest.tail (endedRest.tail_ne_nil (by simp))
          exact group.andThen endedRest.tail fun value rest ended => calls (.glued value) rest ended
      | minus =>
          exact (calls .atom rest endedRest.tail).andThen endedRest.tail
            fun value rest ended => calls (.glued (semantics.neg value)) rest ended
      | _ => exact .failed

theorem step_local (rule : Rule V) :
    Rule.Local semantics more rule tokens (step semantics reader rule tokens) := by
  cases rule with
  | group => exact local_group calls tokens
  | sum => exact local_sum calls tokens
  | sumTail left => exact local_sumTail calls tokens left
  | product => exact local_product calls tokens
  | productTail left => exact local_productTail calls tokens left
  | power => exact local_power calls tokens
  | powerTail base => exact local_powerTail calls tokens base
  | atom => exact local_atom calls tokens
  | glued value => exact local_glued calls tokens value

end Step

theorem read_local (semantics : Semantics V ε) (more : List Token) (rule : Rule V)
    (tokens : List Token) :
    Rule.Local semantics more rule tokens (read semantics rule tokens) := by
  refine read_induction (Rule.Local semantics more) ?_ ?_ rule tokens
  · intro rule tokens
    refine ⟨.error (.malformed .unclosed), ?_⟩
    cases rule <;> simp [Rule.Local, Reading.Local, Reading.LocalGroup]
  · intro reader calls rule tokens
    exact step_local calls tokens rule

/-- Tokens that are an expression of their own are read as one group before whatever follows. -/
theorem read_group_of_parse {semantics : Semantics V ε} {tokens : List Token} {value : V}
    (parsed : parse semantics tokens = .ok value) (rest : List Token) :
    read semantics .group (tokens ++ Token.closing :: rest) = .ok (value, rest) := by
  have group := read_local semantics rest .group (tokens ++ [Token.closing]) (ended_snoc tokens) (by simp)
  unfold parse at parsed
  split at parsed
  · rename_i found
    cases parsed
    simpa using (group _ _ found).2
  · contradiction
  · contradiction

end ComplexCalculator.Grammar
