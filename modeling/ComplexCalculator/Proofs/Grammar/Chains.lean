import Mathlib
import ComplexCalculator.Operand
import ComplexCalculator.Proofs.Grammar.Exchange

namespace ComplexCalculator.Grammar

variable {V ε : Type} {semantics : Semantics V ε}

/-- An expression of its own, with its value. -/
structure Parsed (semantics : Semantics V ε) where
  tokens : List Token
  value : V
  parses : parse semantics tokens = .ok value

namespace Parsed

variable (term : Parsed semantics)

theorem isTerm : IsTerm semantics (enclosed term.tokens) term.value :=
  (isAtom_enclosed term.parses).isTerm

end Parsed

/-- Terms behind one another, each with its sign: `true` is a minus. -/
abbrev Links (semantics : Semantics V ε) := List (Bool × Parsed semantics)

def Links.tokens (links : Links semantics) : List Token :=
  links.flatMap fun (negative, term) => Token.ofSign negative :: enclosed term.tokens

/-- What a chain of terms behind a value computes, operations in the order of their failures. -/
def addUp (value : V) : Links semantics → Except ε V
  | [] => .ok value
  | (true, term) :: rest => do addUp (← semantics.sub value term.value) rest
  | (false, term) :: rest => do semantics.add value (← addUp term.value rest)

theorem Links.endsTerm (links : Links semantics) (rest : List Token) :
    EndsTerm (links.tokens ++ .closing :: rest) := by
  cases links with
  | nil => exact .closing rest
  | cons link links =>
      obtain ⟨negative, term⟩ := link
      cases negative with
      | true => exact .minus _
      | false => exact .plus _

theorem read_sumTail_links (value : V) (links : Links semantics) (rest : List Token) :
    read semantics (.sumTail value) (links.tokens ++ .closing :: rest) =
      compute (addUp value links) (.closing :: rest) := by
  induction links generalizing value with
  | nil => exact read_sumTail_closing
  | cons link links ih =>
      obtain ⟨negative, term⟩ := link
      have ends := Links.endsTerm links rest
      have split : Links.tokens ((negative, term) :: links) ++ .closing :: rest =
          Token.ofSign negative ::
            (enclosed term.tokens ++ (Links.tokens links ++ .closing :: rest)) := by
        simp [Links.tokens]
      rw [split, read_eq_step]
      cases negative with
      | true =>
          simp only [Token.ofSign, if_true, step, skipSpaces, term.isTerm.product ends, addUp,
            Reading.andThen]
          cases semantics.sub value term.value with
          | ok difference => exact ih difference
          | error error => rfl
      | false =>
          simp only [Token.ofSign, Bool.false_eq_true, if_false, step, skipSpaces,
            term.isTerm.sum ends, ih, addUp]
          cases addUp term.value links with
          | ok sum => rfl
          | error error => rfl

theorem ok_of_mapError {δ : Type} {failure : ε → δ} {result : Except ε V} {value : V}
    (found : result.mapError failure = .ok value) : result = .ok value := by
  cases result with
  | ok other =>
      cases found
      rfl
  | error error => contradiction

theorem close_compute (result : Except ε V) (rest : List Token) :
    (compute result (.closing :: rest)).andThen closeGroup = compute result rest := by
  cases result <;> rfl

theorem parse_of_compute {tokens : List Token} {result : Except ε V}
    (group : read semantics .group (tokens ++ [Token.closing]) = compute result []) :
    parse semantics tokens = result.mapError .arithmetic := by
  rw [parse, group]
  cases result <;> rfl

theorem parse_links (first : Parsed semantics) (links : Links semantics) :
    parse semantics (enclosed first.tokens ++ links.tokens) =
      (addUp first.value links).mapError .arithmetic := by
  apply parse_of_compute
  rw [List.append_assoc, first.isTerm.group (Links.endsTerm links []), read_sumTail_links,
    close_compute]

/-- A chain that begins with a minus sign is subtracted from zero, term by term. -/
theorem parse_minus_links (first : Parsed semantics) (links : Links semantics) :
    parse semantics (.minus :: (enclosed first.tokens ++ links.tokens)) =
      (addUp semantics.zero ((true, first) :: links)).mapError .arithmetic := by
  apply parse_of_compute
  have tail := read_sumTail_links semantics.zero ((true, first) :: links) []
  have split : Links.tokens ((true, first) :: links) =
      .minus :: (enclosed first.tokens ++ links.tokens) := by
    simp [Links.tokens, Token.ofSign]
  rw [split] at tail
  rw [← close_compute _ [], ← tail, read_eq_step]
  rfl

section Exactness

variable {G : Type} [AddCommGroup G] (valuation : V → G)

/-- No sum and no difference of the chain is rounded. -/
def ExactAlong (value : V) : Links semantics → Prop
  | [] => True
  | (true, term) :: rest => ∀ difference, semantics.sub value term.value = .ok difference →
      valuation difference = valuation value - valuation term.value ∧ ExactAlong difference rest
  | (false, term) :: rest => ExactAlong term.value rest ∧
      ∀ right sum, addUp term.value rest = .ok right → semantics.add value right = .ok sum →
        valuation sum = valuation value + valuation right

theorem ExactAlong.minus {value : V} (difference : V) {term : Parsed semantics}
    {rest : Links semantics}
    (found : semantics.sub value term.value = .ok difference)
    (exact : valuation difference = valuation value - valuation term.value)
    (behind : ExactAlong valuation difference rest) :
    ExactAlong valuation value ((true, term) :: rest) := by
  intro other same
  obtain rfl : difference = other := Except.ok.inj (found.symm.trans same)
  exact ⟨exact, behind⟩

theorem ExactAlong.plus {value right sum : V} {term : Parsed semantics} {rest : Links semantics}
    (found : addUp term.value rest = .ok right) (added : semantics.add value right = .ok sum)
    (exact : valuation sum = valuation value + valuation right)
    (behind : ExactAlong valuation term.value rest) :
    ExactAlong valuation value ((false, term) :: rest) := by
  refine ⟨behind, fun other result same same' => ?_⟩
  obtain rfl : right = other := Except.ok.inj (found.symm.trans same)
  obtain rfl : sum = result := Except.ok.inj (added.symm.trans same')
  exact exact

def signedSum (links : Links semantics) : G :=
  (links.map fun (negative, term) =>
    if negative then -valuation term.value else valuation term.value).sum

theorem valuation_addUp {value result : V} {links : Links semantics}
    (exact : ExactAlong valuation value links) (found : addUp value links = .ok result) :
    valuation result = valuation value + signedSum valuation links := by
  induction links generalizing value result with
  | nil =>
      cases found
      simp [signedSum]
  | cons link links ih =>
      obtain ⟨negative, term⟩ := link
      cases negative with
      | true =>
          simp only [addUp] at found
          cases subtracted : semantics.sub value term.value with
          | error error =>
              rw [subtracted] at found
              contradiction
          | ok difference =>
              rw [subtracted] at found
              obtain ⟨step, rest⟩ := exact difference subtracted
              rw [ih rest found, step]
              simp only [signedSum, List.map_cons, List.sum_cons, if_true]
              abel
      | false =>
          obtain ⟨rest, step⟩ := exact
          simp only [addUp] at found
          cases right : addUp term.value links with
          | error error =>
              rw [right] at found
              contradiction
          | ok sum =>
              rw [right] at found
              rw [step sum result right found, ih rest right]
              simp [signedSum]

end Exactness

/-- A chain of terms in parentheses with plus and minus signs between them: the order of the
operations, and their result where none of them is rounded. A minus sign in front subtracts the
first term from zero. -/
theorem ofTokens_links (first : Parsed Complex.semantics) (links : Links Complex.semantics) :
    let chain := enclosed first.tokens ++ links.tokens
    (Complex.ofTokens chain = evaluated (addUp first.value links) ∧
      Complex.ofTokens (.minus :: chain) =
        evaluated (addUp Complex.zero ((true, first) :: links))) ∧
    ∀ (G : Type) [AddCommGroup G] (valuation : Complex → G) (value : Complex),
      (ExactAlong valuation first.value links → Complex.ofTokens chain = .ok value →
        valuation value = valuation first.value + signedSum valuation links) ∧
      (valuation Complex.zero = 0 → ExactAlong valuation Complex.zero ((true, first) :: links) →
        Complex.ofTokens (.minus :: chain) = .ok value →
        valuation value = signedSum valuation ((true, first) :: links)) := by
  intro chain
  have read : Complex.ofTokens chain = evaluated (addUp first.value links) :=
    parse_links first links
  have readMinus : Complex.ofTokens (.minus :: chain) =
      evaluated (addUp Complex.zero ((true, first) :: links)) := parse_minus_links first links
  refine ⟨⟨read, readMinus⟩, fun G _ valuation value => ⟨fun exact found => ?_, ?_⟩⟩
  · rw [read] at found
    exact valuation_addUp valuation exact (ok_of_mapError found)
  · intro zero exact found
    rw [readMinus] at found
    rw [valuation_addUp valuation exact (ok_of_mapError found), zero, zero_add]

/-- The real part, in units of the least positive double. -/
def realUnits (z : Complex) : Int :=
  if Binary64.isNegative z.re then -(Binary64.units (Binary64.word z.re))
  else Binary64.units (Binary64.word z.re)

/-- `(3)-(1)+(2)` is four and `-(3)-(1)+(2)` is minus two: the minus sign before `(1)` does not
capture `(2)`. -/
theorem ofTokens_links_three :
    let three : Parsed Complex.semantics := ⟨[.number "3"], ⟨3, 0⟩, by decide +kernel⟩
    let one : Parsed Complex.semantics := ⟨[.number "1"], ⟨1, 0⟩, by decide +kernel⟩
    let two : Parsed Complex.semantics := ⟨[.number "2"], ⟨2, 0⟩, by decide +kernel⟩
    let links := [(true, one), (false, two)]
    let chain := enclosed three.tokens ++ Links.tokens links
    (Complex.ofTokens chain = .ok ⟨4, 0⟩ ∧ Complex.ofTokens (.minus :: chain) = .ok ⟨-2, 0⟩) ∧
      realUnits ⟨4, 0⟩ = realUnits ⟨3, 0⟩ + signedSum realUnits links ∧
      realUnits ⟨-2, 0⟩ = signedSum realUnits ((true, three) :: links) := by
  intro three one two links chain
  obtain ⟨⟨read, readMinus⟩, exact⟩ := ofTokens_links three links
  have four : evaluated (addUp three.value links) = .ok ⟨4, 0⟩ := by decide +kernel
  have minusTwo : evaluated (addUp Complex.zero ((true, three) :: links)) = .ok ⟨-2, 0⟩ := by
    decide +kernel
  rw [four] at read
  rw [minusTwo] at readMinus
  have last (value sum : Complex) (added : value.sum two.value = .ok sum)
      (exact : realUnits sum = realUnits value + realUnits two.value) :
      ExactAlong realUnits value [(false, two)] :=
    .plus realUnits rfl added exact trivial
  refine ⟨⟨read, readMinus⟩, (exact Int realUnits _).1 ?_ read,
    (exact Int realUnits _).2 (by decide +kernel) ?_ readMinus⟩
  · exact .minus realUnits ⟨2, 0⟩ (by decide +kernel) (by decide +kernel) <|
      last ⟨2, 0⟩ ⟨4, 0⟩ (by decide +kernel) (by decide +kernel)
  · exact .minus realUnits ⟨-3, 0⟩ (by decide +kernel) (by decide +kernel) <|
      .minus realUnits ⟨-4, 0⟩ (by decide +kernel) (by decide +kernel) <|
      last ⟨-4, 0⟩ ⟨-2, 0⟩ (by decide +kernel) (by decide +kernel)

end ComplexCalculator.Grammar
