import Mathlib
import ComplexCalculator.Message
import ComplexCalculator.Proofs.Grammar.Acceptance

/-!
The calls of the rules while an expression is read.

A call makes another one directly when it cannot do without it: however the other one fails, it
fails too. `Reached` are the calls made for whole tokens, directly or through others. The rules
are called only where they can go on: `Rule.Given` holds of every call that is reached, for any
tokens, and so some cases of the grammar never arise.
-/

namespace ComplexCalculator.Grammar

variable {V ε : Type}

section Keeping

/-- The error is not that a group goes on with something else than its end. -/
def InPlace (error : SyntaxError) : Prop :=
  ∀ found rest, error ≠ .closingExpected found rest

/-- Where a rule is called. -/
def Rule.Given : Rule V → List Token → Prop
  | .sumTail _, tokens => FollowsProduct tokens ∧ Ended tokens
  | .productTail _, tokens => FollowsPower tokens ∧ Ended tokens
  | .powerTail _, tokens => FollowsAtom tokens ∧ Ended tokens
  | .glued _, tokens => Ended tokens
  | _, tokens => tokens ≠ [] ∧ Ended tokens

/-- Where a rule stops. -/
def Rule.Stops : Rule V → List Token → Prop
  | .group => fun _ => True
  | .sum | .sumTail _ => FollowsSum
  | .product | .productTail _ => FollowsProduct
  | .power | .powerTail _ => FollowsPower
  | .atom | .glued _ => FollowsAtom

/-- The reading stops before tokens that satisfy `stops`, with the last closing parenthesis among
them unless all are read. -/
def Reading.Keeps (reading : Reading V ε) (stops : List Token → Prop) : Prop :=
  reading.Meets (fun rest => stops rest ∧ Ended rest) InPlace

def Rule.Kept (rule : Rule V) (tokens : List Token) (reading : Reading V ε) : Prop :=
  rule.Given tokens → reading.Keeps rule.Stops

end Keeping

namespace Reading.Keeps

variable {reading : Reading V ε} {tokens rest : List Token} {stops last : List Token → Prop}

theorem done {value : V} (here : stops rest) (ended : Ended rest) :
    Reading.Keeps (.ok (value, rest) : Reading V ε) stops :=
  ⟨here, ended⟩

theorem compute {result : Except ε V} (here : stops rest) (ended : Ended rest) :
    (Grammar.compute result rest).Keeps stops :=
  Reading.Meets.compute ⟨here, ended⟩

theorem andThen {following : V → List Token → Reading V ε} (keeps : reading.Keeps stops)
    (continues : ∀ value rest, stops rest → Ended rest → (following value rest).Keeps last) :
    (reading.andThen following).Keeps last :=
  Reading.Meets.andThen keeps (fun value rest ⟨here, ended⟩ => continues value rest here ended)
    fun _ inPlace => inPlace

/-- A sum stops before a closing parenthesis, or where nothing is left. -/
theorem close (keeps : reading.Keeps FollowsSum) :
    (reading.andThen closeGroup).Keeps fun _ => True := by
  refine keeps.andThen ?_
  intro value rest follows ended
  unfold closeGroup
  rw [skipSpaces_of_followsSum follows]
  cases rest with
  | nil => exact nofun
  | cons token rest =>
      obtain rfl := follows token rfl
      exact .done trivial ended.tail

end Reading.Keeps

section Tokens

variable {token : Token} {tokens rest : List Token}

theorem Ended.skipSpaces (ended : Ended tokens) : Ended (skipSpaces tokens) :=
  (Path.spaces ⟨.value, 0⟩ tokens).ended ended

theorem Ended.skipSpacesAndPluses (ended : Ended tokens) : Ended (skipSpacesAndPluses tokens) :=
  (Path.spacesAndPluses 0 tokens).ended ended

/-- The tokens behind the first visible one, which does not end the group. -/
theorem Ended.behind (ended : Ended tokens) (front : Grammar.skipSpaces tokens = token :: rest)
    (inside : token ≠ .closing) : rest ≠ [] ∧ Ended rest := by
  have endedRest := ended.skipSpaces
  rw [front] at endedRest
  exact ⟨endedRest.tail_ne_nil inside, endedRest.tail⟩

theorem Ended.literal {text : String} {numeral : Decimal.Numeral} (ended : Ended tokens)
    (read : Grammar.literal text tokens = .ok (numeral, rest)) : Ended rest := by
  rw [literal_rest read]
  exact (spelling_path text 0 tokens).ended ended

theorem Ended.termAfterQuotient (ended : Ended tokens)
    (found : Grammar.termAfterQuotient tokens = some rest) : rest ≠ [] ∧ Ended rest := by
  unfold Grammar.termAfterQuotient at found
  split at found
  · rename_i front
    cases found
    exact ended.behind front (by simp)
  · rename_i front
    cases found
    exact ended.behind front (by simp)
  · split at found
    · contradiction
    · rename_i goesOn
      cases found
      exact ⟨ne_nil_of_not_atEnd (by simpa using goesOn), ended.skipSpaces⟩

theorem inPlace_literal {text : String} {error : SyntaxError}
    (unread : literal text tokens = .error error) : InPlace error := by
  unfold literal at unread
  dsimp only at unread
  split at unread
  · contradiction
  · cases unread
    exact nofun

theorem followsProduct_minus (rest : List Token) : FollowsProduct (.minus :: rest) := by
  intro token first
  cases first
  exact .inr (.inl rfl)

theorem followsSum_of_followsProduct (follows : FollowsProduct tokens)
    (notPlus : ∀ rest, skipSpaces tokens = .plus :: rest → False)
    (notMinus : ∀ rest, skipSpaces tokens = .minus :: rest → False) :
    FollowsSum (skipSpaces tokens) := by
  cases tokens with
  | nil => exact nofun
  | cons other rest =>
      intro token first
      rcases follows other rfl with rfl | rfl | rfl
      · exact absurd rfl (notPlus rest)
      · exact absurd rfl (notMinus rest)
      · cases first
        rfl

theorem followsPower_skipSpaces (notCaret : ∀ rest, skipSpaces tokens = .caret :: rest → False) :
    FollowsPower (skipSpaces tokens) := by
  intro token first
  obtain ⟨rest, same⟩ := List.head?_eq_some_iff.mp first
  exact ⟨skipSpaces_ne_space same, fun caret => notCaret rest (caret ▸ same)⟩

end Tokens

section Step

variable {semantics : Semantics V ε} {reader : Rule V → List Token → Reading V ε}
variable (calls : ∀ rule tokens, Rule.Kept rule tokens (reader rule tokens))
variable (tokens : List Token)

include calls

theorem group_kept : Rule.Kept .group tokens (step semantics reader .group tokens) := by
  rintro ⟨nonempty, ended⟩
  have front := ended.skipSpacesAndPluses_ne_nil nonempty
  have endedRest := ended.skipSpacesAndPluses
  simp only [step]
  generalize skipSpacesAndPluses tokens = left at *
  split
  · contradiction
  · exact .done trivial endedRest.tail
  · exact (calls (.sumTail semantics.zero) _ ⟨followsProduct_minus _, endedRest⟩).close
  · exact (calls .sum _ ⟨front, endedRest⟩).close

theorem sum_kept : Rule.Kept .sum tokens (step semantics reader .sum tokens) := by
  rintro ⟨nonempty, ended⟩
  have front := ended.skipSpaces_ne_nil nonempty
  simp only [step]
  split
  · rename_i rest same
    exact calls .sum rest (ended.behind same (by simp))
  · rename_i rest same
    have endedRest := ended.skipSpaces
    rw [same] at endedRest
    exact calls (.sumTail semantics.zero) _ ⟨followsProduct_minus rest, endedRest⟩
  · refine Reading.Keeps.andThen (calls .product _ ⟨front, ended.skipSpaces⟩) ?_
    intro left rest follows ended
    exact calls (.sumTail left) rest ⟨follows, ended⟩

theorem sumTail_kept (left : V) :
    Rule.Kept (.sumTail left) tokens (step semantics reader (.sumTail left) tokens) := by
  rintro ⟨follows, ended⟩
  simp only [step]
  split
  · rename_i rest same
    refine Reading.Keeps.andThen (calls .sum rest (ended.behind same (by simp))) ?_
    intro right rest follows ended
    exact .compute follows ended
  · rename_i rest same
    refine Reading.Keeps.andThen (calls .product rest (ended.behind same (by simp))) ?_
    intro right rest follows ended
    refine Reading.Keeps.andThen (.compute follows ended) ?_
    intro difference rest follows ended
    exact calls (.sumTail difference) rest ⟨follows, ended⟩
  · rename_i notPlus notMinus
    exact .done (followsSum_of_followsProduct follows notPlus notMinus) ended.skipSpaces

theorem product_kept : Rule.Kept .product tokens (step semantics reader .product tokens) := by
  intro given
  refine Reading.Keeps.andThen (calls .power tokens given) ?_
  intro left rest follows ended
  exact calls (.productTail left) rest ⟨follows, ended⟩

theorem quotientTail_kept (quotient : V) (follows : FollowsPower tokens) (ended : Ended tokens) :
    (quotientTail semantics reader quotient tokens).Keeps FollowsProduct := by
  unfold quotientTail
  split
  · rename_i term found
    refine Reading.Keeps.andThen (calls .product term (ended.termAfterQuotient found)) ?_
    intro right rest follows ended
    exact .compute follows ended
  · rename_i found
    unfold termAfterQuotient at found
    split at found
    · contradiction
    · contradiction
    · rename_i notStar notSlash
      split at found
      · rename_i ends
        exact .done (followsProduct_of_atEnd follows ends notStar notSlash) ended.skipSpaces
      · contradiction

theorem factorTail_kept (left : V) (given : tokens ≠ [] ∧ Ended tokens) :
    (factorTail semantics reader left tokens).Keeps FollowsProduct := by
  refine Reading.Keeps.andThen (calls .atom tokens given) ?_
  intro factor rest follows ended
  refine Reading.Keeps.andThen (.compute follows ended) ?_
  intro product rest follows ended
  refine Reading.Keeps.andThen (calls (.glued product) rest ended) ?_
  intro group rest follows ended
  refine Reading.Keeps.andThen (calls (.powerTail group) rest ⟨follows, ended⟩) ?_
  intro group rest follows ended
  exact calls (.productTail group) rest ⟨follows, ended⟩

theorem productTail_kept (left : V) :
    Rule.Kept (.productTail left) tokens (step semantics reader (.productTail left) tokens) := by
  rintro ⟨follows, ended⟩
  simp only [step]
  split
  · rename_i rest same
    refine Reading.Keeps.andThen (calls .product rest (ended.behind same (by simp))) ?_
    intro right rest follows ended
    exact .compute follows ended
  · rename_i rest same
    refine Reading.Keeps.andThen (calls .power rest (ended.behind same (by simp))) ?_
    intro divisor rest follows ended
    refine Reading.Keeps.andThen (.compute follows ended) ?_
    intro quotient rest follows ended
    exact quotientTail_kept calls rest quotient follows ended
  · rename_i notStar notSlash
    split
    · rename_i ends
      exact .done (followsProduct_of_atEnd follows ends notStar notSlash) ended.skipSpaces
    · rename_i goesOn
      have front := ne_nil_of_not_atEnd (Bool.eq_false_of_not_eq_true goesOn)
      exact factorTail_kept calls _ left ⟨front, ended.skipSpaces⟩

theorem power_kept : Rule.Kept .power tokens (step semantics reader .power tokens) := by
  intro given
  refine Reading.Keeps.andThen (calls .atom tokens given) ?_
  intro base rest follows ended
  exact calls (.powerTail base) rest ⟨follows, ended⟩

theorem powerTail_kept (base : V) :
    Rule.Kept (.powerTail base) tokens (step semantics reader (.powerTail base) tokens) := by
  rintro ⟨-, ended⟩
  simp only [step]
  split
  · rename_i rest same
    refine Reading.Keeps.andThen (calls .power rest (ended.behind same (by simp))) ?_
    intro exponent rest follows ended
    exact .compute follows ended
  · rename_i notCaret
    exact .done (followsPower_skipSpaces notCaret) ended.skipSpaces

theorem glued_kept (value : V) :
    Rule.Kept (.glued value) tokens (step semantics reader (.glued value) tokens) := by
  intro ended
  simp only [step]
  split
  · rename_i ends
    exact .done ends ended
  · rename_i goesOn
    have front := ne_nil_of_not_atEnd (Bool.eq_false_of_not_eq_true goesOn)
    refine Reading.Keeps.andThen (calls .atom tokens ⟨front, ended⟩) ?_
    intro factor rest follows ended
    exact .compute follows ended

theorem literalTail_kept (text : String) (ended : Ended tokens) :
    (literalTail semantics reader text tokens).Keeps FollowsAtom := by
  unfold literalTail
  split
  · rename_i numeral rest read
    have number : (compute (semantics.number numeral) rest).Keeps fun _ => True :=
      .compute trivial (ended.literal read)
    refine number.andThen ?_
    intro value rest _ ended
    exact calls (.glued value) rest ended
  · rename_i error unread
    exact inPlace_literal unread

theorem atom_kept : Rule.Kept .atom tokens (step semantics reader .atom tokens) := by
  rintro ⟨nonempty, ended⟩
  have front := ended.skipSpaces_ne_nil nonempty
  simp only [step]
  split
  · contradiction
  · rename_i text rest same
    exact literalTail_kept calls rest text (ended.behind same (by simp)).2
  · rename_i rest same
    refine Reading.Keeps.andThen (calls .atom rest (ended.behind same (by simp))) ?_
    intro argument rest follows ended
    exact .compute follows ended
  · rename_i rest same
    refine Reading.Keeps.andThen (calls .atom rest (ended.behind same (by simp))) ?_
    intro argument rest follows ended
    exact .compute follows ended
  · rename_i rest same
    exact calls (.glued semantics.euler) rest (ended.behind same (by simp)).2
  · rename_i rest same
    exact calls (.glued semantics.imaginaryUnit) rest (ended.behind same (by simp)).2
  · rename_i rest same
    refine Reading.Keeps.andThen (calls .group rest (ended.behind same (by simp))) ?_
    intro value rest _ ended
    exact calls (.glued value) rest ended
  · rename_i rest same
    refine Reading.Keeps.andThen (calls .atom rest (ended.behind same (by simp))) ?_
    intro value rest _ ended
    exact calls (.glued (semantics.neg value)) rest ended
  · intro found rest same
    cases same

theorem step_kept (rule : Rule V) : rule.Kept tokens (step semantics reader rule tokens) := by
  cases rule with
  | group => exact group_kept calls tokens
  | sum => exact sum_kept calls tokens
  | sumTail left => exact sumTail_kept calls tokens left
  | product => exact product_kept calls tokens
  | productTail left => exact productTail_kept calls tokens left
  | power => exact power_kept calls tokens
  | powerTail base => exact powerTail_kept calls tokens base
  | atom => exact atom_kept calls tokens
  | glued value => exact glued_kept calls tokens value

end Step

section Calls

variable (semantics : Semantics V ε)

/-- A rule that is called on tokens. -/
structure Call (V : Type) where
  rule : Rule V
  tokens : List Token

def Call.Given (call : Call V) : Prop := call.rule.Given call.tokens

open Classical in
/-- Reads the grammar, but one call fails. -/
noncomputable def interrupted (call : Call V) (failure : Failure ε) (rule : Rule V)
    (tokens : List Token) : Reading V ε :=
  if call = ⟨rule, tokens⟩ then .error failure else read semantics rule tokens

/-- One call makes another one directly: however the other one fails, it fails too. -/
def Calls (caller callee : Call V) : Prop :=
  ∀ failure, step semantics (interrupted semantics callee failure) caller.rule caller.tokens =
    .error failure

/-- The calls that are made while the tokens are read. -/
def Reached (tokens : List Token) : Call V → Prop :=
  Relation.ReflTransGen (Calls semantics) ⟨.group, tokens ++ [.closing]⟩

theorem read_kept [Nonempty ε] (rule : Rule V) (tokens : List Token) :
    rule.Kept tokens (read semantics rule tokens) := by
  refine read_induction Rule.Kept ?_ ?_ rule tokens
  · intro rule tokens
    exact ⟨.error (.arithmetic Classical.ofNonempty), fun _ => trivial⟩
  · intro reader calls rule tokens
    exact step_kept calls tokens rule

variable {semantics} {caller callee : Call V} {tokens : List Token}

theorem interrupted_self (call : Call V) (failure : Failure ε) :
    interrupted semantics call failure call.rule call.tokens = .error failure :=
  if_pos rfl

/-- The call that a step begins with. -/
theorem calls_of_step {next : (Rule V → List Token → Reading V ε) → V → List Token → Reading V ε}
    (begins : ∀ reader, step semantics reader caller.rule caller.tokens =
      (reader callee.rule callee.tokens).andThen (next reader)) :
    Calls semantics caller callee := by
  intro failure
  rw [begins, interrupted_self]
  rfl

theorem interrupted_other {rule : Rule V} {failure : Failure ε} (other : callee ≠ ⟨rule, tokens⟩) :
    interrupted semantics callee failure rule tokens = read semantics rule tokens :=
  if_neg other

/-- A call that is where no call should be could fail with an error that no reading has. -/
theorem Calls.given [Nonempty ε] (calls : Calls semantics caller callee) (given : caller.Given) :
    callee.Given := by
  by_contra outside
  have interruptedKept (failure : Failure ε) (rule : Rule V) (tokens : List Token) :
      rule.Kept tokens (interrupted semantics callee failure rule tokens) := by
    intro given
    have other : callee ≠ ⟨rule, tokens⟩ := by
      rintro rfl
      exact outside given
    rw [interrupted_other other]
    exact read_kept semantics rule tokens given
  let failure : Failure ε := .malformed (.closingExpected .closing [])
  have keeps : (step semantics (interrupted semantics callee failure) caller.rule
      caller.tokens).Keeps caller.rule.Stops :=
    step_kept (interruptedKept failure) caller.tokens caller.rule given
  rw [calls] at keeps
  exact keeps _ _ rfl

theorem Reached.given [Nonempty ε] {call : Call V} (reached : Reached semantics tokens call) :
    call.Given := by
  induction reached with
  | refl => exact ⟨by simp, ended_snoc tokens⟩
  | tail _ calls ih => exact calls.given ih

section Inversion

variable {rule : Rule V} {result : Except ε V} {rest : List Token}
variable {next : Failure ε → V → List Token → Reading V ε}

/-- A reading fails in one way at most. -/
theorem not_all_failures (reading : Reading V ε) : ¬ ∀ failure, reading = .error failure := by
  intro fails
  have same := (fails (.malformed .unclosed)).symm.trans (fails (.malformed (.strayClosing [])))
  cases same

/-- What fails however a call fails is this call, or fails behind it. -/
theorem interrupted_andThen
    (fails : ∀ failure, (interrupted semantics callee failure rule tokens).andThen (next failure) =
      .error failure) :
    callee = ⟨rule, tokens⟩ ∨ ∃ value rest, read semantics rule tokens = .ok (value, rest) ∧
      ∀ failure, next failure value rest = .error failure := by
  by_cases same : callee = ⟨rule, tokens⟩
  · exact .inl same
  · simp only [interrupted_other same] at fails
    cases found : read semantics rule tokens with
    | ok result =>
        rw [found] at fails
        exact .inr ⟨result.1, result.2, rfl, fails⟩
    | error error =>
        rw [found] at fails
        exact absurd fails (not_all_failures (.error error))

theorem compute_andThen
    (fails : ∀ failure, (compute result rest).andThen (next failure) = .error failure) :
    ∃ value, result = .ok value ∧ ∀ failure, next failure value rest = .error failure := by
  cases result with
  | ok value => exact ⟨value, rfl, fails⟩
  | error error => exact absurd fails (not_all_failures (.error (.arithmetic error)))

theorem eq_of_interrupted
    (fails : ∀ failure, interrupted semantics callee failure rule tokens = .error failure) :
    callee = ⟨rule, tokens⟩ := by
  by_contra other
  simp only [interrupted_other other] at fails
  exact not_all_failures _ fails

end Inversion

section Glued

variable {value left : V} {rest : List Token}

/-- Nothing is glued to a negated atom. -/
theorem Calls.atEnd_of_minus {behind : List Token}
    (calls : Calls semantics ⟨.atom, tokens⟩ ⟨.glued value, rest⟩)
    (front : skipSpaces tokens = .minus :: behind) : atEnd rest = true := by
  simp only [Calls, step, front] at calls
  rcases interrupted_andThen calls with same | ⟨factor, left, found, fails⟩
  · cases same
  · cases eq_of_interrupted fails
    exact atEnd_of_read_atom found

theorem atEnd_of_quotientTail {quotient : V}
    (fails : ∀ failure, quotientTail semantics
      (interrupted semantics ⟨.glued value, rest⟩ failure) quotient tokens = .error failure) :
    atEnd rest = true := by
  unfold quotientTail at fails
  split at fails
  · rcases interrupted_andThen fails with same | ⟨right, behind, found, fails⟩
    · cases same
    · exact absurd fails (not_all_failures _)
  · exact absurd fails (not_all_failures _)

theorem atEnd_of_factorTail
    (fails : ∀ failure, factorTail semantics
      (interrupted semantics ⟨.glued value, rest⟩ failure) left tokens = .error failure) :
    atEnd rest = true := by
  rcases interrupted_andThen fails with same | ⟨factor, behind, found, fails⟩
  · cases same
  obtain ⟨product, -, fails⟩ := compute_andThen fails
  rcases interrupted_andThen fails with same | ⟨group, behind', glued, fails⟩
  · cases same
    exact atEnd_of_read_atom found
  rcases interrupted_andThen fails with same | ⟨power, behind'', tail, fails⟩
  · cases same
  · cases eq_of_interrupted fails

/-- Nothing is glued to a product behind a space. -/
theorem Calls.atEnd_of_product
    (calls : Calls semantics ⟨.productTail left, tokens⟩ ⟨.glued value, rest⟩) :
    atEnd rest = true := by
  simp only [Calls, step] at calls
  split at calls
  · rcases interrupted_andThen calls with same | ⟨right, behind, found, fails⟩
    · cases same
    · exact absurd fails (not_all_failures _)
  · rcases interrupted_andThen calls with same | ⟨divisor, behind, found, fails⟩
    · cases same
    · obtain ⟨quotient, -, fails⟩ := compute_andThen fails
      exact atEnd_of_quotientTail fails
  · split at calls
    · exact absurd calls (not_all_failures _)
    · exact atEnd_of_factorTail calls

/-- Where a value ends, no factor is read. -/
theorem not_calls_of_atEnd (ends : atEnd tokens = true) :
    ¬ Calls semantics ⟨.glued value, tokens⟩ callee := by
  intro calls
  simp only [Calls, step, if_pos ends] at calls
  exact not_all_failures _ calls

end Glued

end Calls

/-- An error of the grouping, with its message. -/
inductive GroupingError : SyntaxError → String → Prop where
  | unclosed : GroupingError .unclosed "analyse impossible : parenthèse fermante manquante"
  | stray (rest : List Token) : GroupingError (.strayClosing rest)
      ("analyse impossible : parenthèse fermante en trop (reste : " ++ Token.listing rest ++ ")")

theorem parse_inPlace [Nonempty ε] {semantics : Semantics V ε} {tokens : List Token}
    {error : SyntaxError} (failed : parse semantics tokens = .error (.malformed error)) :
    InPlace error := by
  have keeps := read_kept semantics .group (tokens ++ [.closing]) ⟨by simp, ended_snoc tokens⟩
  unfold parse at failed
  split at failed
  · contradiction
  · cases failed
    exact nofun
  · rename_i found
    cases failed
    rw [found] at keeps
    exact keeps

/-- Whatever the tokens, no group and no atom is begun where nothing is left, no group goes on
with something else than its end, and no factor is found behind a negated atom or behind a
product over a space. The errors of the grouping are the other two. -/
theorem ofTokens_reached (tokens : List Token) :
    (∀ call, Reached Complex.semantics tokens call →
      (call.rule = .group → skipSpacesAndPluses call.tokens ≠ []) ∧
      (call.rule = .atom → skipSpaces call.tokens ≠ []) ∧
      (∀ found rest, read Complex.semantics call.rule call.tokens ≠
        .error (.malformed (.closingExpected found rest))) ∧
      ∀ value rest, Calls Complex.semantics call ⟨.glued value, rest⟩ →
        (call.rule = .atom ∧ ∃ behind, skipSpaces call.tokens = .minus :: behind) ∨
          (∃ product, call.rule = .productTail product) →
        ∀ callee, ¬ Calls Complex.semantics ⟨.glued value, rest⟩ callee) ∧
    ∀ error, Complex.ofTokens tokens = .error (.malformed error) →
      (∃ text rest, error = .unexpected text rest) ∨ GroupingError error error.message := by
  constructor
  · rintro ⟨rule, left⟩ reached
    have given := reached.given
    refine ⟨?_, ?_, ?_, ?_⟩
    · rintro rfl
      exact given.2.skipSpacesAndPluses_ne_nil given.1
    · rintro rfl
      exact given.2.skipSpaces_ne_nil given.1
    · intro found rest failed
      have keeps := read_kept Complex.semantics rule left given
      rw [failed] at keeps
      exact keeps found rest rfl
    · intro value rest calls behind callee
      apply not_calls_of_atEnd
      rcases behind with ⟨rfl, behind, front⟩ | ⟨product, rfl⟩
      · exact calls.atEnd_of_minus front
      · exact calls.atEnd_of_product
  · intro error failed
    have inPlace := parse_inPlace failed
    cases error with
    | unexpected text rest => exact .inl ⟨text, rest, rfl⟩
    | strayClosing rest => exact .inr (.stray rest)
    | unclosed => exact .inr .unclosed
    | closingExpected found rest => exact absurd rfl (inPlace found rest)

/-- In the tokens of `exp-j` the argument is a negated atom, with nothing glued to it. -/
theorem ofTokens_reached_minus :
    let tokens := [.exp, .minus, .imaginaryUnit]
    let argument : Call Complex := ⟨.atom, [.minus, .imaginaryUnit, .closing]⟩
    let glued : Call Complex := ⟨.glued Complex.imaginaryUnit.negate, [.closing]⟩
    Reached Complex.semantics tokens argument ∧ Calls Complex.semantics argument glued ∧
      skipSpaces argument.tokens ≠ [] ∧ ∀ callee, ¬ Calls Complex.semantics glued callee := by
  intro tokens argument glued
  let call (rule : Rule Complex) : Call Complex := ⟨rule, tokens ++ [.closing]⟩
  have sum : Calls Complex.semantics (call .group) (call .sum) := calls_of_step fun _ => rfl
  have product : Calls Complex.semantics (call .sum) (call .product) := calls_of_step fun _ => rfl
  have power : Calls Complex.semantics (call .product) (call .power) := calls_of_step fun _ => rfl
  have atom : Calls Complex.semantics (call .power) (call .atom) := calls_of_step fun _ => rfl
  have negated : Calls Complex.semantics (call .atom) argument := calls_of_step fun _ => rfl
  have unit : read Complex.semantics .atom [.imaginaryUnit, .closing] =
      .ok (Complex.imaginaryUnit, [.closing]) := rfl
  have behind : Calls Complex.semantics argument glued := by
    intro failure
    have other : glued ≠ ⟨.atom, [.imaginaryUnit, .closing]⟩ := by
      intro same
      cases congrArg Call.rule same
    change (interrupted Complex.semantics glued failure .atom [.imaginaryUnit, .closing]).andThen
      (fun value => interrupted Complex.semantics glued failure
        (.glued (Complex.semantics.neg value))) = .error failure
    rw [interrupted_other other, unit]
    exact interrupted_self glued failure
  have reached : Reached Complex.semantics tokens argument :=
    .tail (.tail (.tail (.tail (.tail .refl sum) product) power) atom) negated
  obtain ⟨calls, -⟩ := ofTokens_reached tokens
  obtain ⟨-, begins, -, nothing⟩ := calls argument reached
  exact ⟨reached, behind, begins rfl, nothing _ _ behind (.inl ⟨rfl, _, rfl⟩)⟩

end ComplexCalculator.Grammar
