import ComplexCalculator.Proofs.Grammar.Induction

/-!
Reading with two semantics side by side.

The rules of the grammar look at tokens only, so two semantics take the same steps until an
operation of the first one has no result. A `Tracking` relates the values of the two, and says
what the second may hold or report from there on. `Simulates` asks this of single operations,
and `read_tracks` concludes it for all that is read.
-/

namespace ComplexCalculator.Grammar

variable {V W ε δ : Type}

inductive Binary where
  | add
  | sub
  | mul
  | div
  | pow

inductive Unary where
  | exp
  | ln

def Semantics.binary (semantics : Semantics V ε) : Binary → V → V → Except ε V
  | .add => semantics.add
  | .sub => semantics.sub
  | .mul => semantics.mul
  | .div => semantics.div
  | .pow => semantics.pow

def Semantics.unary (semantics : Semantics V ε) : Unary → V → Except ε V
  | .exp => semantics.exp
  | .ln => semantics.ln

/-- How a second reading follows a first one. -/
structure Tracking (V ε W δ : Type) where
  /-- The values of one construct. -/
  agree : V → W → Prop
  /-- What the second reading may hold after this failure of the first. -/
  spoiled : ε → W → Prop
  /-- How the second reading may end after this failure of the first. -/
  lost : ε → Failure δ → Prop

namespace Tracking

variable (tracking : Tracking V ε W δ)

def After (failure : ε) : Reading W δ → Prop
  | .ok (value, _) => tracking.spoiled failure value
  | .error error => tracking.lost failure error

def Tracks : Reading V ε → Reading W δ → Prop
  | .ok (value, rest), second => ∃ other, second = .ok (other, rest) ∧ tracking.agree value other
  | .error (.malformed error), second => second = .error (.malformed error)
  | .error (.arithmetic failure), second => tracking.After failure second

/-- The same rule, with values that agree. -/
inductive Same : Rule V → Rule W → Prop where
  | group : Same .group .group
  | sum : Same .sum .sum
  | sumTail {value : V} {other : W} (agree : tracking.agree value other) :
      Same (.sumTail value) (.sumTail other)
  | product : Same .product .product
  | productTail {value : V} {other : W} (agree : tracking.agree value other) :
      Same (.productTail value) (.productTail other)
  | power : Same .power .power
  | powerTail {value : V} {other : W} (agree : tracking.agree value other) :
      Same (.powerTail value) (.powerTail other)
  | atom : Same .atom .atom
  | glued {value : V} {other : W} (agree : tracking.agree value other) :
      Same (.glued value) (.glued other)

/-- A rule that goes on from a value of the second reading alone. -/
inductive Spoiled (failure : ε) : Rule W → Prop where
  | sumTail {value : W} (spoiled : tracking.spoiled failure value) : Spoiled failure (.sumTail value)
  | productTail {value : W} (spoiled : tracking.spoiled failure value) :
      Spoiled failure (.productTail value)
  | powerTail {value : W} (spoiled : tracking.spoiled failure value) :
      Spoiled failure (.powerTail value)
  | glued {value : W} (spoiled : tracking.spoiled failure value) : Spoiled failure (.glued value)

/-- What the operations of two semantics must satisfy. The operands of an operation are computed
from left to right, so a spoiled right operand has a left one that agrees. -/
structure Simulates (first : Semantics V ε) (second : Semantics W δ) : Prop where
  number : ∀ numeral rest,
    tracking.Tracks (compute (first.number numeral) rest) (compute (second.number numeral) rest)
  euler : tracking.agree first.euler second.euler
  imaginaryUnit : tracking.agree first.imaginaryUnit second.imaginaryUnit
  zero : tracking.agree first.zero second.zero
  one : tracking.agree first.one second.one
  binary : ∀ operation {left right left' right'}, tracking.agree left left' →
    tracking.agree right right' → ∀ rest,
    tracking.Tracks (compute (first.binary operation left right) rest)
      (compute (second.binary operation left' right') rest)
  unary : ∀ operation {argument argument'}, tracking.agree argument argument' → ∀ rest,
    tracking.Tracks (compute (first.unary operation argument) rest)
      (compute (second.unary operation argument') rest)
  neg : ∀ {argument argument'}, tracking.agree argument argument' →
    tracking.agree (first.neg argument) (second.neg argument')
  spoiledLeft : ∀ operation {failure left}, tracking.spoiled failure left → ∀ right rest,
    tracking.After failure (compute (second.binary operation left right) rest)
  spoiledRight : ∀ operation {failure value left right}, tracking.agree value left →
    tracking.spoiled failure right → ∀ rest,
    tracking.After failure (compute (second.binary operation left right) rest)
  spoiledUnary : ∀ operation {failure argument}, tracking.spoiled failure argument → ∀ rest,
    tracking.After failure (compute (second.unary operation argument) rest)
  spoiledNeg : ∀ {failure argument}, tracking.spoiled failure argument →
    tracking.spoiled failure (second.neg argument)
  lost : ∀ {failure value}, tracking.spoiled failure value → ∀ error, tracking.lost failure error

variable {tracking}

theorem After.andThen {failure : ε} {reading : Reading W δ} {next : W → List Token → Reading W δ}
    (after : tracking.After failure reading)
    (following : ∀ value rest, tracking.spoiled failure value →
      tracking.After failure (next value rest)) :
    tracking.After failure (reading.andThen next) := by
  cases reading with
  | error error => exact after
  | ok result => exact following _ _ after

theorem Tracks.andThen {first : Reading V ε} {second : Reading W δ}
    {next : V → List Token → Reading V ε} {next' : W → List Token → Reading W δ}
    (tracks : tracking.Tracks first second)
    (following : ∀ value other rest, tracking.agree value other →
      tracking.Tracks (next value rest) (next' other rest))
    (spoiled : ∀ failure other rest, tracking.spoiled failure other →
      tracking.After failure (next' other rest)) :
    tracking.Tracks (first.andThen next) (second.andThen next') := by
  match first, tracks with
  | .ok (value, rest), tracks =>
      obtain ⟨other, rfl, agree⟩ := tracks
      exact following value other rest agree
  | .error (.malformed error), tracks =>
      change second = _ at tracks
      subst tracks
      rfl
  | .error (.arithmetic failure), tracks =>
      exact After.andThen tracks (spoiled failure)

theorem tracks_ok {value : V} {other : W} (agree : tracking.agree value other)
    (rest : List Token) : tracking.Tracks (.ok (value, rest)) (.ok (other, rest)) :=
  ⟨other, rfl, agree⟩

theorem closeGroup_tracks {value : V} {other : W} (agree : tracking.agree value other)
    (rest : List Token) : tracking.Tracks (closeGroup value rest) (closeGroup other rest) := by
  unfold closeGroup
  rcases skipSpaces rest with _ | ⟨token, rest⟩
  · rfl
  · cases token with
    | closing => exact tracks_ok agree rest
    | _ => rfl

/-- The readers that a step calls, side by side. -/
structure Calls (tracking : Tracking V ε W δ) (reader : Rule V → List Token → Reading V ε)
    (reader' : Rule W → List Token → Reading W δ) : Prop where
  tracks : ∀ {rule rule'}, tracking.Same rule rule' → ∀ tokens,
    tracking.Tracks (reader rule tokens) (reader' rule' tokens)
  after : ∀ {failure rule}, tracking.Spoiled failure rule → ∀ tokens,
    tracking.After failure (reader' rule tokens)

section After

variable {first : Semantics V ε} {second : Semantics W δ} {failure : ε} {value : W}
variable (simulates : tracking.Simulates first second) (spoiled : tracking.spoiled failure value)

include simulates spoiled

/-- Of a call that the first reading does not make nothing is known. -/
theorem Simulates.andThen_after (reading : Reading W δ) {next : W → List Token → Reading W δ}
    (following : ∀ right rest, tracking.After failure (next right rest)) :
    tracking.After failure (reading.andThen next) := by
  cases reading with
  | error error => exact simulates.lost spoiled error
  | ok result => exact following _ _

theorem Simulates.operate_after (reading : Reading W δ) (operation : Binary) :
    tracking.After failure
      (reading.andThen fun right => compute (second.binary operation value right)) :=
  simulates.andThen_after spoiled reading (simulates.spoiledLeft operation spoiled)

theorem Simulates.closeGroup_after (rest : List Token) :
    tracking.After failure (closeGroup value rest) := by
  unfold closeGroup
  split
  · exact spoiled
  · exact simulates.lost spoiled _
  · exact simulates.lost spoiled _

theorem Simulates.quotientTail_after (reader : Rule W → List Token → Reading W δ)
    (tokens : List Token) :
    tracking.After failure (quotientTail second reader value tokens) := by
  unfold quotientTail
  cases termAfterQuotient tokens with
  | none => exact spoiled
  | some term => exact simulates.operate_after spoiled _ .mul

end After

section Step

variable {first : Semantics V ε} {second : Semantics W δ}
variable {reader : Rule V → List Token → Reading V ε} {reader' : Rule W → List Token → Reading W δ}

theorem Calls.step_product (calls : tracking.Calls reader reader')
    (tokens : List Token) :
    tracking.Tracks (step first reader .product tokens) (step second reader' .product tokens) :=
  (calls.tracks .power tokens).andThen
    (fun _ _ rest agree => calls.tracks (.productTail agree) rest)
    fun _ _ rest spoiled => calls.after (.productTail spoiled) rest

theorem Calls.step_power (calls : tracking.Calls reader reader')
    (tokens : List Token) :
    tracking.Tracks (step first reader .power tokens) (step second reader' .power tokens) :=
  (calls.tracks .atom tokens).andThen
    (fun _ _ rest agree => calls.tracks (.powerTail agree) rest)
    fun _ _ rest spoiled => calls.after (.powerTail spoiled) rest

theorem Calls.raised_after (calls : tracking.Calls reader reader') {failure : ε} {group : W}
    (spoiled : tracking.spoiled failure group) (tokens : List Token) :
    tracking.After failure
      ((reader' (.powerTail group) tokens).andThen fun group => reader' (.productTail group)) :=
  (calls.after (.powerTail spoiled) tokens).andThen
    fun _ rest spoiled => calls.after (.productTail spoiled) rest

theorem Calls.grouped_after (calls : tracking.Calls reader reader') {failure : ε} {product : W}
    (spoiled : tracking.spoiled failure product) (tokens : List Token) :
    tracking.After failure
      ((reader' (.glued product) tokens).andThen fun group rest =>
        (reader' (.powerTail group) rest).andThen fun group => reader' (.productTail group)) :=
  (calls.after (.glued spoiled) tokens).andThen
    fun _ rest spoiled => calls.raised_after spoiled rest

variable (simulates : tracking.Simulates first second) (calls : tracking.Calls reader reader')

include simulates calls

/-- The second reading goes on with what it holds, whatever it reads. -/
theorem Simulates.step_after {failure : ε} {rule : Rule W} (held : tracking.Spoiled failure rule)
    (tokens : List Token) : tracking.After failure (step second reader' rule tokens) := by
  cases held with
  | sumTail spoiled =>
      simp only [step]
      split
      · exact simulates.operate_after spoiled _ .add
      · refine simulates.andThen_after spoiled _ fun right rest => ?_
        refine (simulates.spoiledLeft .sub spoiled right rest).andThen fun difference rest held => ?_
        exact calls.after (.sumTail held) rest
      · exact spoiled
  | productTail spoiled =>
      simp only [step]
      split
      · exact simulates.operate_after spoiled _ .mul
      · refine simulates.andThen_after spoiled _ fun divisor rest => ?_
        refine (simulates.spoiledLeft .div spoiled divisor rest).andThen fun quotient rest held => ?_
        exact simulates.quotientTail_after held reader' rest
      · split
        · exact spoiled
        · refine simulates.andThen_after spoiled _ fun factor rest => ?_
          exact (simulates.spoiledLeft .mul spoiled factor rest).andThen
            fun product rest held => calls.grouped_after held rest
  | powerTail spoiled =>
      simp only [step]
      split
      · exact simulates.operate_after spoiled _ .pow
      · exact spoiled
  | glued spoiled =>
      simp only [step]
      split
      · exact spoiled
      · exact simulates.operate_after spoiled _ .mul

/-- The value that a call reads is the right operand of an operation, which ends the rule. -/
theorem Simulates.operate {rule : Rule V} {rule' : Rule W} (same : tracking.Same rule rule')
    (operation : Binary) {left : V} {left' : W} (agree : tracking.agree left left')
    (tokens : List Token) :
    tracking.Tracks
      ((reader rule tokens).andThen fun right => compute (first.binary operation left right))
      ((reader' rule' tokens).andThen fun right => compute (second.binary operation left' right)) :=
  (calls.tracks same tokens).andThen
    (fun _ _ rest agree' => simulates.binary operation agree agree' rest)
    fun _ _ rest spoiled => simulates.spoiledRight operation agree spoiled rest

theorem Simulates.step_group (tokens : List Token) :
    tracking.Tracks (step first reader .group tokens) (step second reader' .group tokens) := by
  have close {rule rule'} (same : tracking.Same rule rule') (tokens : List Token) :
      tracking.Tracks ((reader rule tokens).andThen closeGroup)
        ((reader' rule' tokens).andThen closeGroup) :=
    (calls.tracks same tokens).andThen (fun _ _ rest agree => closeGroup_tracks agree rest)
      fun _ _ rest spoiled => simulates.closeGroup_after spoiled rest
  simp only [step]
  rcases skipSpacesAndPluses tokens with _ | ⟨token, rest⟩
  · exact tracks_ok simulates.one []
  · cases token with
    | closing => exact tracks_ok simulates.one rest
    | minus => exact close (.sumTail simulates.zero) (.minus :: rest)
    | _ => exact close .sum _

theorem Simulates.step_sum (tokens : List Token) :
    tracking.Tracks (step first reader .sum tokens) (step second reader' .sum tokens) := by
  have terms (tokens : List Token) :
      tracking.Tracks ((reader .product tokens).andThen fun left => reader (.sumTail left))
        ((reader' .product tokens).andThen fun left => reader' (.sumTail left)) :=
    (calls.tracks .product tokens).andThen
      (fun _ _ rest agree => calls.tracks (.sumTail agree) rest)
      fun _ _ rest spoiled => calls.after (.sumTail spoiled) rest
  simp only [step]
  rcases skipSpaces tokens with _ | ⟨token, rest⟩
  · exact terms []
  · cases token with
    | plus => exact calls.tracks .sum rest
    | minus => exact calls.tracks (.sumTail simulates.zero) (.minus :: rest)
    | _ => exact terms _

theorem Simulates.step_sumTail {left : V} {left' : W} (agree : tracking.agree left left')
    (tokens : List Token) :
    tracking.Tracks (step first reader (.sumTail left) tokens)
      (step second reader' (.sumTail left') tokens) := by
  simp only [step]
  rcases skipSpaces tokens with _ | ⟨token, rest⟩
  · exact tracks_ok agree []
  · cases token with
    | plus => exact simulates.operate calls .sum .add agree rest
    | minus =>
        refine (calls.tracks .product rest).andThen ?_ ?_
        · intro right right' rest agree'
          exact (simulates.binary .sub agree agree' rest).andThen
            (fun _ _ rest agree => calls.tracks (.sumTail agree) rest)
            fun _ _ rest spoiled => calls.after (.sumTail spoiled) rest
        · intro failure right rest spoiled
          exact (simulates.spoiledRight .sub agree spoiled rest).andThen
            fun _ rest spoiled => calls.after (.sumTail spoiled) rest
    | _ => exact tracks_ok agree _

theorem Simulates.quotientTail_tracks {quotient : V} {quotient' : W}
    (agree : tracking.agree quotient quotient') (tokens : List Token) :
    tracking.Tracks (quotientTail first reader quotient tokens)
      (quotientTail second reader' quotient' tokens) := by
  unfold quotientTail
  cases termAfterQuotient tokens with
  | none => exact tracks_ok agree _
  | some term => exact simulates.operate calls .product .mul agree term

/-- A product that goes on behind a space. -/
theorem Simulates.factorTail_tracks {left : V} {left' : W} (agree : tracking.agree left left')
    (tokens : List Token) :
    tracking.Tracks (factorTail first reader left tokens)
      (factorTail second reader' left' tokens) := by
  refine (calls.tracks .atom tokens).andThen ?_ ?_
  · intro factor factor' rest agree'
    refine (simulates.binary .mul agree agree' rest).andThen ?_
      fun _ _ rest spoiled => calls.grouped_after spoiled rest
    intro product product' rest agree
    refine (calls.tracks (.glued agree) rest).andThen ?_ fun _ _ rest spoiled =>
      calls.raised_after spoiled rest
    intro group group' rest agree
    exact (calls.tracks (.powerTail agree) rest).andThen
      (fun _ _ rest agree => calls.tracks (.productTail agree) rest)
      fun _ _ rest spoiled => calls.after (.productTail spoiled) rest
  · intro failure factor rest spoiled
    exact (simulates.spoiledRight .mul agree spoiled rest).andThen
      fun _ rest spoiled => calls.grouped_after spoiled rest

theorem Simulates.step_productTail {left : V} {left' : W} (agree : tracking.agree left left')
    (tokens : List Token) :
    tracking.Tracks (step first reader (.productTail left) tokens)
      (step second reader' (.productTail left') tokens) := by
  simp only [step]
  rcases skipSpaces tokens with _ | ⟨token, rest⟩
  · exact tracks_ok agree []
  · cases token with
    | star => exact simulates.operate calls .product .mul agree rest
    | slash =>
        refine (calls.tracks .power rest).andThen ?_ ?_
        · intro divisor divisor' rest agree'
          exact (simulates.binary .div agree agree' rest).andThen
            (fun _ _ rest agree => simulates.quotientTail_tracks calls agree rest)
            fun _ _ rest spoiled => simulates.quotientTail_after spoiled reader' rest
        · intro failure divisor rest spoiled
          exact (simulates.spoiledRight .div agree spoiled rest).andThen
            fun _ rest spoiled => simulates.quotientTail_after spoiled reader' rest
    | plus | minus | caret | closing | space => exact tracks_ok agree _
    | _ => exact simulates.factorTail_tracks calls agree _

theorem Simulates.step_powerTail {base : V} {base' : W} (agree : tracking.agree base base')
    (tokens : List Token) :
    tracking.Tracks (step first reader (.powerTail base) tokens)
      (step second reader' (.powerTail base') tokens) := by
  simp only [step]
  rcases skipSpaces tokens with _ | ⟨token, rest⟩
  · exact tracks_ok agree []
  · cases token with
    | caret => exact simulates.operate calls .power .pow agree rest
    | _ => exact tracks_ok agree _

theorem Simulates.step_glued {value : V} {value' : W} (agree : tracking.agree value value')
    (tokens : List Token) :
    tracking.Tracks (step first reader (.glued value) tokens)
      (step second reader' (.glued value') tokens) := by
  simp only [step]
  split
  · exact tracks_ok agree tokens
  · exact simulates.operate calls .atom .mul agree tokens

theorem Simulates.step_atom (tokens : List Token) :
    tracking.Tracks (step first reader .atom tokens) (step second reader' .atom tokens) := by
  have applied (operation : Unary) (tokens : List Token) :
      tracking.Tracks
        ((reader .atom tokens).andThen fun argument => compute (first.unary operation argument))
        ((reader' .atom tokens).andThen fun argument => compute (second.unary operation argument)) :=
    (calls.tracks .atom tokens).andThen
      (fun _ _ rest agree => simulates.unary operation agree rest)
      fun _ _ rest spoiled => simulates.spoiledUnary operation spoiled rest
  simp only [step]
  rcases skipSpaces tokens with _ | ⟨token, rest⟩
  · exact tracks_ok simulates.one []
  · cases token with
    | number text =>
        dsimp only
        cases literal text rest with
        | error error => rfl
        | ok result =>
            exact (simulates.number result.1 result.2).andThen
              (fun _ _ rest agree => calls.tracks (.glued agree) rest)
              fun _ _ rest spoiled => calls.after (.glued spoiled) rest
    | exp => exact applied .exp rest
    | ln => exact applied .ln rest
    | euler => exact calls.tracks (.glued simulates.euler) rest
    | imaginaryUnit => exact calls.tracks (.glued simulates.imaginaryUnit) rest
    | opening =>
        exact (calls.tracks .group rest).andThen
          (fun _ _ rest agree => calls.tracks (.glued agree) rest)
          fun _ _ rest spoiled => calls.after (.glued spoiled) rest
    | minus =>
        exact (calls.tracks .atom rest).andThen
          (fun _ _ rest agree => calls.tracks (.glued (simulates.neg agree)) rest)
          fun _ _ rest spoiled => calls.after (.glued (simulates.spoiledNeg spoiled)) rest
    | _ => rfl

theorem Simulates.step_calls : tracking.Calls (step first reader) (step second reader') where
  tracks := by
    intro rule rule' same tokens
    cases same with
    | group => exact simulates.step_group calls tokens
    | sum => exact simulates.step_sum calls tokens
    | sumTail agree => exact simulates.step_sumTail calls agree tokens
    | product => exact calls.step_product tokens
    | productTail agree => exact simulates.step_productTail calls agree tokens
    | power => exact calls.step_power tokens
    | powerTail agree => exact simulates.step_powerTail calls agree tokens
    | atom => exact simulates.step_atom calls tokens
    | glued agree => exact simulates.step_glued calls agree tokens
  after := simulates.step_after calls

end Step

variable {first : Semantics V ε} {second : Semantics W δ}

theorem Simulates.calls_within (simulates : tracking.Simulates first second) (depth : Nat) :
    tracking.Calls (readWithin first depth) (readWithin second depth) := by
  induction depth with
  | zero =>
      refine ⟨fun _ _ => rfl, ?_⟩
      intro failure rule held tokens
      cases held with
      | sumTail spoiled | productTail spoiled | powerTail spoiled | glued spoiled =>
          exact simulates.lost spoiled _
  | succ depth ih => exact simulates.step_calls ih

/-- Two semantics read alike, as long as the operations of the first one have results. -/
theorem Simulates.read_tracks (simulates : tracking.Simulates first second) {rule : Rule V}
    {rule' : Rule W} (same : tracking.Same rule rule') (tokens : List Token) :
    tracking.Tracks (read first rule tokens) (read second rule' tokens) := by
  have depth : callDepth rule' tokens = callDepth rule tokens := by cases same <;> rfl
  unfold read
  rw [depth]
  exact (simulates.calls_within (callDepth rule tokens)).tracks same tokens

/-- Two whole expressions: the readings of their tokens, once nothing is left. -/
def Ends (tracking : Tracking V ε W δ) :
    Except (Failure ε) V → Except (Failure δ) W → Prop
  | .ok value, second => ∃ other, second = .ok other ∧ tracking.agree value other
  | .error (.malformed error), second => second = .error (.malformed error)
  | .error (.arithmetic failure), .ok other => tracking.spoiled failure other
  | .error (.arithmetic failure), .error error => tracking.lost failure error

theorem Simulates.parse_ends (simulates : tracking.Simulates first second) (tokens : List Token) :
    tracking.Ends (parse first tokens) (parse second tokens) := by
  have tracks := simulates.read_tracks .group (tokens ++ [Token.closing])
  unfold parse
  cases found : read first .group (tokens ++ [Token.closing]) with
  | ok result =>
      obtain ⟨value, rest⟩ := result
      rw [found] at tracks
      obtain ⟨other, same, agree⟩ := tracks
      rw [same]
      cases rest with
      | nil => exact ⟨other, rfl, agree⟩
      | cons token rest => rfl
  | error error =>
      rw [found] at tracks
      cases error with
      | malformed error =>
          change _ = _ at tracks
          rw [tracks]
          rfl
      | arithmetic failure =>
          cases continued : read second .group (tokens ++ [Token.closing]) with
          | error error =>
              rw [continued] at tracks
              exact tracks
          | ok result =>
              obtain ⟨other, rest⟩ := result
              rw [continued] at tracks
              cases rest with
              | nil => exact tracks
              | cons token rest => exact simulates.lost tracks _

end Tracking

end ComplexCalculator.Grammar
