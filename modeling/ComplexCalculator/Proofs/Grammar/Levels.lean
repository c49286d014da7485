import ComplexCalculator.Proofs.Decimal.Spelling
import ComplexCalculator.Proofs.Grammar.Context
import ComplexCalculator.Proofs.Grammar.Induction

/-!
What each rule of the grammar reads.

`Rule.Contract` says for each rule which tokens it is given, over which path it reads them,
where it stops, and which errors it reports. `step_contract` shows that one step keeps the
contracts, so that `read_contract` follows for readings of any depth. Where an atom stops does not
depend on what it is given.
-/

namespace ComplexCalculator.Grammar

open Decimal (IsSpelled AllDigits)

variable {V ε : Type}

def WellSpelled (tokens : List Token) : Prop :=
  ∀ text, .number text ∈ tokens → IsSpelled text.toList

def Ended (tokens : List Token) : Prop := ∀ token ∈ tokens.getLast?, token = .closing

def FollowsAtom (tokens : List Token) : Prop := atEnd tokens = true

def FollowsPower (tokens : List Token) : Prop :=
  ∀ token ∈ tokens.head?, token ≠ .space ∧ token ≠ .caret

def FollowsProduct (tokens : List Token) : Prop :=
  ∀ token ∈ tokens.head?, token = .plus ∨ token = .minus ∨ token = .closing

def FollowsSum (tokens : List Token) : Prop := ∀ token ∈ tokens.head?, token = .closing

/-- The reading goes from `place` over the tokens to a value, and stops before tokens that
satisfy `stops`. The errors that it reports are missteps, unless a number is no decimal. -/
def Reading.Runs (reading : Reading V ε) (place : Place) (tokens : List Token)
    (stops : List Token → Prop) : Prop :=
  reading.Meets (fun rest => Path place tokens ⟨.value, 0⟩ rest ∧ stops rest)
    (fun error => WellSpelled tokens → Misstep 1 place tokens error)

/-- The reading takes the inside of a group and the parenthesis that closes it. -/
def Reading.Groups (reading : Reading V ε) (tokens : List Token) : Prop :=
  reading.Meets
    (fun rest => ∃ context : Context, context.admits .closing = true ∧
      Path ⟨.opened, 0⟩ tokens ⟨context, 0⟩ (.closing :: rest))
    (fun error => WellSpelled tokens → Misstep 0 ⟨.opened, 0⟩ tokens error)

/-- What a rule is given, what it reads and where it stops. -/
def Rule.Contract : Rule V → List Token → Reading V ε → Prop
  | .group, tokens, reading => tokens ≠ [] → Ended tokens → reading.Groups tokens
  | .sum, tokens, reading =>
      tokens ≠ [] → Ended tokens → reading.Runs ⟨.term, 0⟩ tokens FollowsSum
  | .sumTail _, tokens, reading =>
      FollowsProduct tokens → Ended tokens → reading.Runs ⟨.value, 0⟩ tokens FollowsSum
  | .product, tokens, reading =>
      tokens ≠ [] → Ended tokens → reading.Runs ⟨.operand, 0⟩ tokens FollowsProduct
  | .productTail _, tokens, reading =>
      FollowsPower tokens → Ended tokens → reading.Runs ⟨.value, 0⟩ tokens FollowsProduct
  | .power, tokens, reading =>
      tokens ≠ [] → Ended tokens → reading.Runs ⟨.operand, 0⟩ tokens FollowsPower
  | .powerTail _, tokens, reading =>
      FollowsAtom tokens → Ended tokens → reading.Runs ⟨.value, 0⟩ tokens FollowsPower
  | .atom, tokens, reading =>
      tokens ≠ [] → Ended tokens → reading.Runs ⟨.operand, 0⟩ tokens FollowsAtom
  | .glued _, tokens, reading =>
      Ended tokens → reading.Runs ⟨.value, 0⟩ tokens FollowsAtom

section Tokens

variable {place target : Place} {token : Token} {tokens rest : List Token}

theorem Path.wellSpelled (path : Path place tokens target rest) (spelled : WellSpelled tokens) :
    WellSpelled rest := by
  obtain ⟨front, rfl⟩ := path.exists_front
  intro text member
  exact spelled text (List.mem_append_right front member)

theorem Path.ended (path : Path place tokens target rest) (ended : Ended tokens) :
    Ended rest := by
  obtain ⟨front, rfl⟩ := path.exists_front
  intro token last
  exact ended token (by simpa [List.getLast?_append] using Or.inl last)

theorem Ended.tail (ended : Ended (token :: tokens)) : Ended tokens :=
  fun last found => ended last (by cases tokens <;> simp_all)

theorem Ended.tail_ne_nil (ended : Ended (token :: tokens)) (inside : token ≠ .closing) :
    tokens ≠ [] := by
  intro equal
  subst equal
  exact inside (ended token rfl)

theorem Ended.skipSpaces_ne_nil (ended : Ended tokens) (nonempty : tokens ≠ []) :
    skipSpaces tokens ≠ [] := by
  fun_induction skipSpaces tokens with
  | case1 rest ih => exact ih ended.tail (ended.tail_ne_nil (by simp))
  | case2 rest => exact nonempty

theorem Ended.skipSpacesAndPluses_ne_nil (ended : Ended tokens) (nonempty : tokens ≠ []) :
    skipSpacesAndPluses tokens ≠ [] := by
  fun_induction skipSpacesAndPluses tokens with
  | case1 rest ih => exact ih ended.tail (ended.tail_ne_nil (by simp))
  | case2 rest ih => exact ih ended.tail (ended.tail_ne_nil (by simp))
  | case3 rest => exact nonempty

theorem skipSpaces_of_followsSum (follows : FollowsSum tokens) : skipSpaces tokens = tokens := by
  cases tokens with
  | nil => rfl
  | cons token rest =>
      obtain rfl := follows token rfl
      rfl

theorem agreeOn_of_not_atEnd (goesOn : atEnd tokens = false) :
    ∀ token left, skipSpaces tokens = token :: left →
      Context.AgreeOn .operand .value token := by
  intro token left front
  cases tokens with
  | nil => contradiction
  | cons first rest =>
      have visible : first ≠ .space := by rintro rfl; contradiction
      rw [skipSpaces_cons rest visible] at front
      obtain ⟨rfl, rfl⟩ := List.cons.inj front
      exact Context.agreeOn_of_not_endsValue goesOn

theorem followsProduct_of_atEnd (follows : FollowsPower tokens)
    (ends : atEnd (skipSpaces tokens) = true)
    (notStar : ∀ rest, skipSpaces tokens = .star :: rest → False)
    (notSlash : ∀ rest, skipSpaces tokens = .slash :: rest → False) :
    FollowsProduct (skipSpaces tokens) := by
  cases tokens with
  | nil => exact nofun
  | cons token rest =>
      obtain ⟨space, caret⟩ := follows token rfl
      rw [skipSpaces_cons rest space] at ends notStar notSlash ⊢
      intro other first
      cases first
      cases token <;> simp_all [atEnd, Token.endsValue]

theorem ne_nil_of_not_atEnd (goesOn : atEnd tokens = false) : tokens ≠ [] := by
  intro equal
  subst equal
  contradiction

end Tokens

namespace Reading.Runs

variable {reading : Reading V ε} {place next : Place} {tokens rest : List Token}
variable {stops last : List Token → Prop}

theorem done {value : V} (here : stops tokens) :
    Reading.Runs (.ok (value, tokens) : Reading V ε) ⟨.value, 0⟩ tokens stops :=
  ⟨.here, here⟩

theorem compute {result : Except ε V} (here : stops tokens) :
    (Grammar.compute result tokens).Runs ⟨.value, 0⟩ tokens stops :=
  Reading.Meets.compute ⟨.here, here⟩

theorem along (path : Path place tokens next rest) (runs : reading.Runs next rest stops) :
    reading.Runs place tokens stops :=
  runs.imp (fun _ ⟨onward, here⟩ => ⟨path.trans onward, here⟩)
    fun _ misstep spelled => (misstep (path.wellSpelled spelled)).along path

/-- A call on the tokens behind the first visible one. -/
theorem behind {token : Token} (path : Path place tokens next (token :: rest))
    (ended : Ended (token :: rest)) (admitted : next.context.admits token = true)
    (inside : token ≠ .closing)
    (call : rest ≠ [] → Ended rest → reading.Runs (next.behind token) rest stops) :
    reading.Runs place tokens stops := by
  have runs := call (ended.tail_ne_nil inside) ended.tail
  have onward := path.trans (.one admitted fun closing => absurd closing inside)
  exact runs.along onward

theorem andThen {following : V → List Token → Reading V ε}
    (runs : reading.Runs place tokens stops) (ended : Ended tokens)
    (continues : ∀ value rest, stops rest → Ended rest →
      (following value rest).Runs ⟨.value, 0⟩ rest last) :
    (reading.andThen following).Runs place tokens last :=
  Reading.Meets.andThen runs
    (fun value _ ⟨path, here⟩ => (continues value _ here (path.ended ended)).along path)
    fun _ misstep => misstep

/-- A reading may begin in another context that treats the first visible token alike, if it
takes that token. -/
theorem transfer {context other : Context} (runs : reading.Runs ⟨context, 0⟩ tokens stops)
    (agree : ∀ token left, skipSpaces tokens = token :: left → context.AgreeOn other token)
    (moves : context = .value → ∀ rest, stops rest → skipSpaces rest ≠ skipSpaces tokens) :
    reading.Runs ⟨other, 0⟩ tokens stops := by
  refine Reading.Meets.imp runs ?_ fun _ misstep spelled => (misstep spelled).transfer agree
  intro rest holds
  obtain ⟨path, here⟩ := holds
  rcases path.transfer agree with path | ⟨same, unmoved⟩
  · exact ⟨path, here⟩
  · cases same
    exact absurd unmoved (moves rfl rest here)

theorem minus {other : Context} (runs : reading.Runs ⟨.value, 0⟩ (.minus :: rest) FollowsSum) :
    reading.Runs ⟨other, 0⟩ (.minus :: rest) FollowsSum := by
  refine runs.transfer ?_ ?_
  · intro token left front
    cases front
    exact Context.agreeOn_minus _ _
  · intro _ left follows same
    rw [skipSpaces_of_followsSum follows] at same
    subst same
    exact absurd (follows .minus rfl) (by simp)

theorem close (runs : reading.Runs ⟨.opened, 0⟩ rest FollowsSum)
    (path : Path ⟨.opened, 0⟩ tokens ⟨.opened, 0⟩ rest) :
    (reading.andThen closeGroup).Groups tokens := by
  refine Reading.Meets.andThen (runs.along path) ?_
    fun _ misstep spelled => (misstep spelled).mono (Nat.zero_le 1)
  intro value left holds
  obtain ⟨reached, follows⟩ := holds
  unfold closeGroup
  rw [skipSpaces_of_followsSum follows]
  cases left with
  | nil => exact fun _ => .unclosed reached (Nat.le_refl 0)
  | cons token left =>
      obtain rfl := follows token rfl
      exact ⟨.value, rfl, reached⟩

end Reading.Runs

theorem Reading.Groups.runs {reading : Reading V ε} {tokens : List Token}
    {stops : List Token → Prop} {following : V → List Token → Reading V ε}
    (groups : reading.Groups tokens) (ended : Ended tokens)
    (continues : ∀ value rest, Ended rest → (following value rest).Runs ⟨.value, 0⟩ rest stops) :
    (reading.andThen following).Runs ⟨.opened, 1⟩ tokens stops := by
  refine Reading.Meets.andThen groups ?_ fun _ misstep spelled => (misstep spelled).deepen 1
  intro value rest holds
  obtain ⟨context, admitted, path⟩ := holds
  have inner : Path ⟨.opened, 1⟩ tokens ⟨context, 1⟩ (.closing :: rest) := path.deepen 1
  have outer : Path ⟨.opened, 1⟩ tokens ⟨.value, 0⟩ rest :=
    inner.trans (.one admitted fun _ => Nat.one_pos)
  exact (continues value rest (outer.ended ended)).along outer

theorem spelling_path (text : String) (depth : Nat) (tokens : List Token) :
    Path ⟨.value, depth⟩ tokens ⟨.value, depth⟩ (spelling text tokens).2 := by
  unfold spelling
  split
  · split
    · exact .step rfl (by simp) (.step rfl (by simp) (.step rfl (by simp) .here))
    · exact .here
  · split
    · exact .step rfl (by simp) (.step rfl (by simp) (.step rfl (by simp) .here))
    · exact .here
  · exact .here

theorem literal_rest {text : String} {tokens rest : List Token} {numeral : Decimal.Numeral}
    (read : literal text tokens = .ok (numeral, rest)) : rest = (spelling text tokens).2 := by
  simp only [literal] at read
  split at read
  · cases read
    rfl
  · contradiction

theorem literal_of_wellSpelled {text : String} {tokens : List Token}
    (spelled : WellSpelled (.number text :: tokens)) :
    ∃ numeral, literal text tokens = .ok (numeral, (spelling text tokens).2) := by
  have isSpelled : IsSpelled text.toList := spelled text (by simp)
  have readable : (Decimal.Numeral.read? (spelling text tokens).1.toList).isSome = true := by
    unfold spelling
    split
    · rename_i exponent rest
      have exponentSpelled := spelled exponent (by simp)
      split
      · rename_i digits
        have read := isSpelled.read?_exponent_isSome false exponentSpelled.ne_nil
          (List.all_eq_true.mp digits)
        simpa using read
      · exact isSpelled.read?_isSome
    · rename_i exponent rest
      have exponentSpelled := spelled exponent (by simp)
      split
      · rename_i digits
        have read := isSpelled.read?_exponent_isSome true exponentSpelled.ne_nil
          (List.all_eq_true.mp digits)
        simpa using read
      · exact isSpelled.read?_isSome
    · exact isSpelled.read?_isSome
  obtain ⟨numeral, read⟩ := Option.isSome_iff_exists.mp readable
  exact ⟨numeral, by simp [literal, read]⟩

section Step

variable {semantics : Semantics V ε} {reader : Rule V → List Token → Reading V ε}
variable (calls : ∀ rule tokens, Rule.Contract rule tokens (reader rule tokens))
variable (tokens : List Token)

include calls

theorem step_group : Rule.Contract .group tokens (step semantics reader .group tokens) := by
  intro nonempty ended
  have path := Path.spacesAndPluses 0 tokens
  have front := ended.skipSpacesAndPluses_ne_nil nonempty
  have endedRest := path.ended ended
  have visible := @skipSpacesAndPluses_ne tokens
  simp only [step]
  generalize skipSpacesAndPluses tokens = left at *
  split
  · contradiction
  · exact ⟨.opened, rfl, path⟩
  · rename_i rest
    have call := calls (.sumTail semantics.zero) (.minus :: rest)
      (fun _ first => by cases first; simp) endedRest
    exact call.minus.close path
  · rename_i notClosing notMinus
    have call := calls .sum left front endedRest
    refine (call.transfer ?_ (by simp)).close path
    intro token rest same
    cases left with
    | nil => contradiction
    | cons first left =>
        obtain ⟨space, sign⟩ := visible rfl
        rw [skipSpaces_cons left space] at same
        obtain ⟨rfl, rfl⟩ := List.cons.inj same
        exact Context.agreeOn_opened sign (fun closing => notClosing left (by rw [closing])) space

theorem step_sum : Rule.Contract .sum tokens (step semantics reader .sum tokens) := by
  intro nonempty ended
  have path := Path.spaces ⟨.term, 0⟩ tokens
  have front := ended.skipSpaces_ne_nil nonempty
  have endedRest := path.ended ended
  simp only [step]
  split
  · rename_i rest same
    rw [same] at path endedRest
    exact Reading.Runs.behind path endedRest rfl (by simp) (calls .sum rest)
  · rename_i rest same
    rw [same] at path endedRest
    have call := calls (.sumTail semantics.zero) (.minus :: rest)
      (fun _ first => by cases first; simp) endedRest
    exact call.minus.along path
  · rename_i notPlus notMinus
    have call := calls .product (skipSpaces tokens) front endedRest
    have moved : (reader .product (skipSpaces tokens)).Runs ⟨.term, 0⟩ (skipSpaces tokens)
        FollowsProduct := by
      refine call.transfer ?_ (by simp)
      intro token left same
      rw [skipSpaces_skipSpaces] at same
      exact Context.agreeOn_term (fun sign => notPlus left (sign ▸ same))
        (skipSpaces_ne_space same)
    refine (moved.along path).andThen ended ?_
    intro left rest follows ended
    exact calls (.sumTail left) rest follows ended

theorem step_sumTail (left : V) :
    Rule.Contract (.sumTail left) tokens (step semantics reader (.sumTail left) tokens) := by
  intro follows ended
  have path := Path.spaces ⟨.value, 0⟩ tokens
  have endedRest := path.ended ended
  simp only [step]
  split
  · rename_i rest same
    rw [same] at path endedRest
    have call := Reading.Runs.behind path endedRest rfl (by simp) (calls .sum rest)
    refine call.andThen ended ?_
    intro right rest follows _
    exact .compute follows
  · rename_i rest same
    rw [same] at path endedRest
    have call := Reading.Runs.behind path endedRest rfl (by simp) (calls .product rest)
    refine call.andThen ended ?_
    intro right rest follows ended
    refine Reading.Runs.andThen (.compute follows) ended ?_
    intro difference rest follows ended
    exact calls (.sumTail difference) rest follows ended
  · rename_i notPlus notMinus
    refine Reading.Runs.along path (.done ?_)
    intro token first
    cases tokens with
    | nil => contradiction
    | cons other rest =>
        rcases follows other rfl with rfl | rfl | rfl
        · exact absurd rfl (notPlus rest)
        · exact absurd rfl (notMinus rest)
        · cases first
          rfl

theorem step_product : Rule.Contract .product tokens (step semantics reader .product tokens) := by
  intro nonempty ended
  refine Reading.Runs.andThen (calls .power tokens nonempty ended) ended ?_
  intro left rest follows ended
  exact calls (.productTail left) rest follows ended

theorem step_afterQuotient (quotient : V) (follows : FollowsPower tokens)
    (ended : Ended tokens) :
    Reading.Runs
      (match termAfterQuotient tokens with
        | some term => (reader .product term).andThen fun right =>
            compute (semantics.mul quotient right)
        | none => .ok (quotient, skipSpaces tokens))
      ⟨.value, 0⟩ tokens FollowsProduct := by
  have path := Path.spaces ⟨.value, 0⟩ tokens
  have endedRest := path.ended ended
  unfold termAfterQuotient
  split
  · rename_i rest found
    have product : (reader .product rest).Runs ⟨.value, 0⟩ tokens FollowsProduct := by
      split at found
      · rename_i left same
        cases found
        rw [same] at path endedRest
        exact Reading.Runs.behind path endedRest rfl (by simp) (calls .product rest)
      · rename_i left same
        cases found
        rw [same] at path endedRest
        exact Reading.Runs.behind path endedRest rfl (by simp) (calls .product rest)
      · rename_i notStar notSlash
        by_cases ends : atEnd (skipSpaces tokens) = true
        · simp [ends] at found
        · rw [if_neg ends] at found
          cases found
          have goesOn : atEnd (skipSpaces tokens) = false := by simpa using ends
          have call := calls .product (skipSpaces tokens) (ne_nil_of_not_atEnd goesOn) endedRest
          exact (call.transfer (agreeOn_of_not_atEnd goesOn) (by simp)).along path
    exact product.andThen ended fun right rest follows _ => .compute follows
  · rename_i found
    split at found
    · contradiction
    · contradiction
    · rename_i notStar notSlash
      by_cases ends : atEnd (skipSpaces tokens) = true
      · refine Reading.Runs.along path (.done ?_)
        exact followsProduct_of_atEnd follows ends notStar notSlash
      · simp [ends] at found

theorem step_productTail (left : V) : Rule.Contract (.productTail left) tokens
    (step semantics reader (.productTail left) tokens) := by
  intro follows ended
  have path := Path.spaces ⟨.value, 0⟩ tokens
  have endedRest := path.ended ended
  simp only [step]
  split
  · rename_i rest same
    rw [same] at path endedRest
    have call := Reading.Runs.behind path endedRest rfl (by simp) (calls .product rest)
    refine call.andThen ended ?_
    intro right rest follows _
    exact .compute follows
  · rename_i rest same
    rw [same] at path endedRest
    have call := Reading.Runs.behind path endedRest rfl (by simp) (calls .power rest)
    refine call.andThen ended ?_
    intro divisor rest follows ended
    refine Reading.Runs.andThen (.compute follows) ended ?_
    intro quotient rest follows ended
    exact step_afterQuotient calls rest quotient follows ended
  · rename_i notStar notSlash
    split
    · rename_i ends
      refine Reading.Runs.along path (.done ?_)
      exact followsProduct_of_atEnd follows ends notStar notSlash
    · rename_i goesOn
      have goesOn : atEnd (skipSpaces tokens) = false := by simpa using goesOn
      have call := calls .atom (skipSpaces tokens) (ne_nil_of_not_atEnd goesOn) endedRest
      have factor := (call.transfer (agreeOn_of_not_atEnd goesOn) (by simp)).along path
      refine factor.andThen ended ?_
      intro factor rest follows ended
      refine Reading.Runs.andThen (.compute follows) ended ?_
      intro product rest follows ended
      refine Reading.Runs.andThen (calls (.glued product) rest ended) ended ?_
      intro group rest follows ended
      refine Reading.Runs.andThen (calls (.powerTail group) rest follows ended) ended ?_
      intro group rest follows ended
      exact calls (.productTail group) rest follows ended

theorem step_power : Rule.Contract .power tokens (step semantics reader .power tokens) := by
  intro nonempty ended
  refine Reading.Runs.andThen (calls .atom tokens nonempty ended) ended ?_
  intro base rest follows ended
  exact calls (.powerTail base) rest follows ended

theorem step_powerTail (base : V) :
    Rule.Contract (.powerTail base) tokens (step semantics reader (.powerTail base) tokens) := by
  intro follows ended
  have path := Path.spaces ⟨.value, 0⟩ tokens
  have endedRest := path.ended ended
  simp only [step]
  split
  · rename_i rest same
    rw [same] at path endedRest
    have call := Reading.Runs.behind path endedRest rfl (by simp) (calls .power rest)
    refine call.andThen ended ?_
    intro exponent rest follows _
    exact .compute follows
  · rename_i notCaret
    refine Reading.Runs.along path (.done ?_)
    intro token first
    obtain ⟨rest, same⟩ := List.head?_eq_some_iff.mp first
    exact ⟨skipSpaces_ne_space same, fun caret => notCaret rest (caret ▸ same)⟩

theorem step_glued (value : V) :
    Rule.Contract (.glued value) tokens (step semantics reader (.glued value) tokens) := by
  intro ended
  simp only [step]
  split
  · rename_i ends
    exact .done ends
  · rename_i goesOn
    have goesOn : atEnd tokens = false := by simpa using goesOn
    have call := calls .atom tokens (ne_nil_of_not_atEnd goesOn) ended
    refine (call.transfer (agreeOn_of_not_atEnd goesOn) (by simp)).andThen ended ?_
    intro factor rest follows _
    exact .compute follows

theorem literal_runs (text : String) (ended : Ended (.number text :: tokens)) :
    Reading.Runs
      (match literal text tokens with
        | .ok (numeral, rest) =>
            (compute (semantics.number numeral) rest).andThen fun value => reader (.glued value)
        | .error error => .error (.malformed error))
      ⟨.operand, 0⟩ (.number text :: tokens) FollowsAtom := by
  have path : Path ⟨.operand, 0⟩ (.number text :: tokens) ⟨.value, 0⟩ tokens := .one rfl (by simp)
  split
  · rename_i numeral rest read
    have behind := path.trans (spelling_path text 0 tokens)
    rw [← literal_rest read] at behind
    have number : (compute (semantics.number numeral) rest).Runs ⟨.value, 0⟩ rest
        fun _ => True := .compute trivial
    have glued := number.andThen (behind.ended ended) fun value rest _ ended =>
      calls (.glued value) rest ended
    exact glued.along behind
  · rename_i error unread
    intro spelled
    obtain ⟨numeral, read⟩ := literal_of_wellSpelled spelled
    rw [read] at unread
    contradiction

theorem step_atom : Rule.Contract .atom tokens (step semantics reader .atom tokens) := by
  intro nonempty ended
  have path := Path.spaces ⟨.operand, 0⟩ tokens
  have front := ended.skipSpaces_ne_nil nonempty
  have endedRest := path.ended ended
  simp only [step]
  split
  · contradiction
  · rename_i text rest same
    rw [same] at path endedRest
    exact (literal_runs calls rest text endedRest).along path
  · rename_i rest same
    rw [same] at path endedRest
    have call := Reading.Runs.behind path endedRest rfl (by simp) (calls .atom rest)
    refine call.andThen ended ?_
    intro argument rest follows _
    exact .compute follows
  · rename_i rest same
    rw [same] at path endedRest
    have call := Reading.Runs.behind path endedRest rfl (by simp) (calls .atom rest)
    refine call.andThen ended ?_
    intro argument rest follows _
    exact .compute follows
  · rename_i rest same
    rw [same] at path endedRest
    have call := calls (.glued semantics.euler) rest endedRest.tail
    exact call.along (path.trans (.one rfl (by simp)))
  · rename_i rest same
    rw [same] at path endedRest
    have call := calls (.glued semantics.imaginaryUnit) rest endedRest.tail
    exact call.along (path.trans (.one rfl (by simp)))
  · rename_i rest same
    rw [same] at path endedRest
    have call := calls .group rest (endedRest.tail_ne_nil (by simp)) endedRest.tail
    refine (call.runs endedRest.tail ?_).along (path.trans (.one rfl (by simp)))
    intro value rest ended
    exact calls (.glued value) rest ended
  · rename_i rest same
    rw [same] at path endedRest
    have call := Reading.Runs.behind path endedRest rfl (by simp) (calls .atom rest)
    refine call.andThen ended ?_
    intro value rest _ ended
    exact calls (.glued (semantics.neg value)) rest ended
  · rename_i token rest notNumber notExp notLn notEuler notUnit notOpening notMinus same
    rw [same] at path
    refine fun _ => .unexpected path ?_
    have visible := skipSpaces_ne_space same
    cases token <;> simp_all [Context.admits]

theorem step_contract (rule : Rule V) :
    Rule.Contract rule tokens (step semantics reader rule tokens) := by
  cases rule with
  | group => exact step_group calls tokens
  | sum => exact step_sum calls tokens
  | sumTail left => exact step_sumTail calls tokens left
  | product => exact step_product calls tokens
  | productTail left => exact step_productTail calls tokens left
  | power => exact step_power calls tokens
  | powerTail base => exact step_powerTail calls tokens base
  | atom => exact step_atom calls tokens
  | glued value => exact step_glued calls tokens value

end Step

/-- Every reading keeps the contract of its rule. -/
theorem read_contract [Nonempty ε] (semantics : Semantics V ε) (rule : Rule V)
    (tokens : List Token) : rule.Contract tokens (read semantics rule tokens) := by
  refine read_induction Rule.Contract ?_ ?_ rule tokens
  · intro rule tokens
    refine ⟨.error (.arithmetic (Classical.ofNonempty)), ?_⟩
    cases rule <;> simp [Rule.Contract, Reading.Runs, Reading.Groups, Reading.Meets]
  · intro reader calls rule tokens
    exact step_contract calls tokens rule

section Atoms

variable {semantics : Semantics V ε} {tokens rest : List Token} {value : V}

/-- What is said of readings of atoms and of what is glued to them: they stop where a value ends. -/
def Rule.StopsAtEnd : Rule V → List Token → Reading V ε → Prop
  | .atom, _, reading | .glued _, _, reading =>
      reading.Meets (fun rest => atEnd rest = true) fun _ => True
  | _, _, _ => True

theorem meets_anything (reading : Reading V ε) :
    reading.Meets (fun _ => True) fun _ => True := by
  match reading with
  | .ok _ | .error (.malformed _) | .error (.arithmetic _) => trivial

theorem step_stopsAtEnd {reader : Rule V → List Token → Reading V ε}
    (calls : ∀ rule tokens, Rule.StopsAtEnd rule tokens (reader rule tokens)) (rule : Rule V)
    (tokens : List Token) : Rule.StopsAtEnd rule tokens (step semantics reader rule tokens) := by
  have operated (operation : V → Except ε V) (tokens : List Token) :
      Reading.Meets ((reader .atom tokens).andThen fun argument => compute (operation argument))
        (fun rest => atEnd rest = true) fun _ => True :=
    Reading.Meets.andThen (calls .atom tokens) (fun _ _ met => .compute met) fun _ _ => trivial
  have glued (reading : Reading V ε) (next : V → V) :
      Reading.Meets (reading.andThen fun value => reader (.glued (next value)))
        (fun rest => atEnd rest = true) fun _ => True :=
    (meets_anything reading).andThen (fun value rest _ => calls (.glued (next value)) rest)
      fun _ _ => trivial
  cases rule with
  | atom =>
      simp only [Rule.StopsAtEnd, step]
      split
      · rfl
      · split
        · exact glued _ id
        · trivial
      · exact operated _ _
      · exact operated _ _
      · exact calls (.glued semantics.euler) _
      · exact calls (.glued semantics.imaginaryUnit) _
      · exact glued _ id
      · exact glued _ semantics.neg
      · trivial
  | glued value =>
      simp only [Rule.StopsAtEnd, step]
      split
      · assumption
      · exact operated _ _
  | _ => trivial

/-- An atom is read with all that is glued to it. -/
theorem atEnd_of_read_atom (found : read semantics .atom tokens = .ok (value, rest)) :
    atEnd rest = true := by
  have stops : Rule.StopsAtEnd .atom tokens (read semantics .atom tokens) :=
    read_induction Rule.StopsAtEnd
    (fun rule _ => ⟨.error (.malformed .unclosed), by cases rule <;> trivial⟩)
    (fun _ calls => step_stopsAtEnd calls) .atom tokens
  rw [found] at stops
  exact stops

end Atoms

end ComplexCalculator.Grammar
