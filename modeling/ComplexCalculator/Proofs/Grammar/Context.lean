import Mathlib
import ComplexCalculator.Proofs.Grammar.Depth

namespace ComplexCalculator.Grammar

/-- What the tokens read so far ask for. -/
inductive Context where
  /-- The first term of a group; plus signs in front of it change nothing. -/
  | opened
  /-- A term, behind a plus sign. -/
  | term
  /-- An operand, behind any other operator or a function. -/
  | operand
  /-- Nothing: a value has been read. -/
  | value
deriving DecidableEq, Repr

namespace Context

def admits : Context → Token → Bool
  | _, .unknown _ => false
  | context, .plus => context != .operand
  | context, .star => context == .value
  | context, .slash => context == .value
  | context, .caret => context == .value
  | context, .closing => context == .opened || context == .value
  | _, _ => true

def behind : Context → Token → Context
  | context, .space => context
  | context, .plus => if context = .opened then .opened else .term
  | _, .number _ => .value
  | _, .euler => .value
  | _, .imaginaryUnit => .value
  | _, .closing => .value
  | _, .opening => .opened
  | _, _ => .operand

def AgreeOn (left right : Context) (token : Token) : Prop :=
  left.admits token = right.admits token ∧ left.behind token = right.behind token

theorem agreeOn_of_not_endsValue {token : Token} (starts : token.endsValue = false) :
    AgreeOn .operand .value token := by
  cases token <;> simp_all [Token.endsValue, AgreeOn, admits, behind]

theorem agreeOn_term {token : Token} (sign : token ≠ .plus) (space : token ≠ .space) :
    AgreeOn .operand .term token := by
  cases token with
  | closing => exact ⟨rfl, rfl⟩
  | _ => simp_all [AgreeOn, admits, behind]

theorem agreeOn_opened {token : Token} (sign : token ≠ .plus) (closing : token ≠ .closing)
    (space : token ≠ .space) : AgreeOn .term .opened token := by
  cases token <;> simp_all [AgreeOn, admits, behind]

theorem agreeOn_minus (left right : Context) : AgreeOn left right .minus :=
  ⟨rfl, rfl⟩

end Context

structure Place where
  context : Context
  depth : Nat := 0

namespace Place

def behind (place : Place) : Token → Place
  | .opening => ⟨.opened, place.depth + 1⟩
  | .closing => ⟨.value, place.depth - 1⟩
  | token => ⟨place.context.behind token, place.depth⟩

def deepen (place : Place) (more : Nat) : Place := ⟨place.context, place.depth + more⟩

theorem behind_deepen {place : Place} {token : Token} (more : Nat)
    (closes : token = .closing → 0 < place.depth) :
    (place.behind token).deepen more = (place.deepen more).behind token := by
  cases token with
  | opening => simp only [behind, deepen, Nat.add_right_comm]
  | closing =>
      have positive := closes rfl
      simp only [behind, deepen, Place.mk.injEq, true_and]
      omega
  | _ => rfl

theorem behind_congr {context other : Context} {token : Token} (depth : Nat)
    (same : context.behind token = other.behind token) :
    (⟨context, depth⟩ : Place).behind token = (⟨other, depth⟩ : Place).behind token := by
  cases token <;> simp_all [behind]

end Place

/-- The tokens from one place to another; the last argument is what is left behind them. -/
inductive Path : Place → List Token → Place → List Token → Prop where
  | here {place : Place} {tokens : List Token} : Path place tokens place tokens
  | step {place target : Place} {token : Token} {tokens rest : List Token}
      (admitted : place.context.admits token = true)
      (closes : token = .closing → 0 < place.depth)
      (onward : Path (place.behind token) tokens target rest) :
      Path place (token :: tokens) target rest

namespace Path

variable {place next target other : Place} {token : Token}
variable {tokens middle rest left more : List Token}

theorem one (admitted : place.context.admits token = true)
    (closes : token = .closing → 0 < place.depth) :
    Path place (token :: tokens) (place.behind token) tokens :=
  .step admitted closes .here

theorem trans (first : Path place tokens next middle) (second : Path next middle target rest) :
    Path place tokens target rest := by
  induction first with
  | here => exact second
  | step admitted closes _ ih => exact .step admitted closes (ih second)

theorem deepen (path : Path place tokens target rest) (more : Nat) :
    Path (place.deepen more) tokens (target.deepen more) rest := by
  induction path with
  | here => exact .here
  | step admitted closes _ ih =>
      refine .step admitted (fun closing => Nat.lt_add_right more (closes closing)) ?_
      rw [← Place.behind_deepen more closes]
      exact ih

theorem exists_front (path : Path place tokens target rest) :
    ∃ front, tokens = front ++ rest := by
  induction path with
  | here => exact ⟨[], rfl⟩
  | @step _ _ token _ _ _ _ _ ih =>
      obtain ⟨front, rfl⟩ := ih
      exact ⟨token :: front, rfl⟩

theorem append (path : Path place tokens target rest) (more : List Token) :
    Path place (tokens ++ more) target (rest ++ more) := by
  induction path with
  | here => exact .here
  | step admitted closes _ ih => exact .step admitted closes ih

theorem of_append (path : Path place (tokens ++ more) target more) :
    Path place tokens target [] := by
  generalize all : tokens ++ more = whole at path
  induction path generalizing tokens with
  | here =>
      obtain rfl : tokens = [] := List.append_left_eq_self.mp all
      exact .here
  | step admitted closes onward ih =>
      cases tokens with
      | nil =>
          obtain ⟨front, split⟩ := onward.exists_front
          have length := congrArg List.length all
          simp only [split, List.nil_append, List.length_cons, List.length_append] at length
          omega
      | cons token tokens =>
          obtain ⟨rfl, same⟩ := List.cons.inj all
          exact .step admitted closes (ih same)

/-- Of two paths from one place the longer one goes on from the end of the other. -/
theorem compare (first : Path place tokens target rest) (second : Path place tokens other left) :
    Path target rest other left ∨ Path other left target rest := by
  induction first with
  | here => exact .inl second
  | step admitted closes onward ih =>
      cases second with
      | here => exact .inr (.step admitted closes onward)
      | step _ _ second => exact ih second

theorem spaces (place : Place) (tokens : List Token) :
    Path place tokens place (skipSpaces tokens) := by
  fun_induction skipSpaces tokens with
  | case1 rest ih => exact .step rfl (by simp) ih
  | case2 rest => exact .here

theorem spacesAndPluses (depth : Nat) (tokens : List Token) :
    Path ⟨.opened, depth⟩ tokens ⟨.opened, depth⟩ (skipSpacesAndPluses tokens) := by
  fun_induction skipSpacesAndPluses tokens with
  | case1 rest ih => exact .step rfl (by simp) ih
  | case2 rest ih => exact .step rfl (by simp) ih
  | case3 rest => exact .here

end Path

theorem skipSpaces_cons {token : Token} (tokens : List Token) (visible : token ≠ .space) :
    skipSpaces (token :: tokens) = token :: tokens := by
  cases token <;> simp_all [skipSpaces]

theorem skipSpaces_skipSpaces (tokens : List Token) :
    skipSpaces (skipSpaces tokens) = skipSpaces tokens := by
  fun_induction skipSpaces tokens with
  | case1 rest ih => exact ih
  | case2 tokens notSpace =>
      cases tokens with
      | nil => rfl
      | cons token rest =>
          refine skipSpaces_cons rest ?_
          intro equal
          subst equal
          exact notSpace rest rfl

theorem skipSpaces_ne_space {tokens rest : List Token} {token : Token}
    (front : skipSpaces tokens = token :: rest) : token ≠ .space := by
  fun_induction skipSpaces tokens with
  | case1 _ ih => exact ih front
  | case2 tokens notSpace =>
      intro equal
      subst equal
      exact notSpace rest front

theorem skipSpacesAndPluses_ne {tokens rest : List Token} {token : Token}
    (front : skipSpacesAndPluses tokens = token :: rest) : token ≠ .space ∧ token ≠ .plus := by
  fun_induction skipSpacesAndPluses tokens with
  | case1 _ ih => exact ih front
  | case2 _ ih => exact ih front
  | case3 tokens notSpace notPlus =>
      constructor
      · intro equal
        subst equal
        exact notSpace rest front
      · intro equal
        subst equal
        exact notPlus rest front

/-- A path may begin in another context that treats the first visible token alike, unless it
ends before that token. -/
theorem Path.transfer {context other : Context} {depth : Nat} {target : Place}
    {tokens rest : List Token} (path : Path ⟨context, depth⟩ tokens target rest)
    (agree : ∀ token left, skipSpaces tokens = token :: left → context.AgreeOn other token) :
    Path ⟨other, depth⟩ tokens target rest ∨
      target = ⟨context, depth⟩ ∧ skipSpaces rest = skipSpaces tokens := by
  generalize start : (⟨context, depth⟩ : Place) = place at path
  induction path with
  | here => exact .inr ⟨rfl, rfl⟩
  | @step _ _ token tokens _ admitted closes onward ih =>
      subst start
      by_cases space : token = .space
      · subst space
        refine (ih agree rfl).imp (fun path => .step rfl (by simp) path) id
      · obtain ⟨admits, behind⟩ := agree token tokens (skipSpaces_cons tokens space)
        refine .inl (.step (admits.symm.trans admitted) closes ?_)
        rw [← Place.behind_congr depth behind]
        exact onward

/-- The syntax errors that the tokens behind a place hold for a reader: the first token that
may not stand where it does, or an end inside of at least `margin` open groups. -/
inductive Misstep (margin : Nat) (place : Place) (tokens : List Token) : SyntaxError → Prop where
  | unexpected {target : Place} {token : Token} {rest : List Token}
      (path : Path place tokens target (token :: rest))
      (refused : target.context.admits token = false) :
      Misstep margin place tokens (.unexpected token.text rest)
  | unclosed {target : Place} (path : Path place tokens target [])
      (inside : margin ≤ target.depth) : Misstep margin place tokens .unclosed

namespace Misstep

variable {margin : Nat} {place next : Place} {tokens rest : List Token} {error : SyntaxError}

theorem along (path : Path place tokens next rest) (misstep : Misstep margin next rest error) :
    Misstep margin place tokens error := by
  cases misstep with
  | unexpected onward refused => exact .unexpected (path.trans onward) refused
  | unclosed onward inside => exact .unclosed (path.trans onward) inside

theorem mono {larger : Nat} (misstep : Misstep larger place tokens error)
    (le : margin ≤ larger) : Misstep margin place tokens error := by
  cases misstep with
  | unexpected path refused => exact .unexpected path refused
  | unclosed path inside => exact .unclosed path (Nat.le_trans le inside)

theorem deepen (misstep : Misstep margin place tokens error) (more : Nat) :
    Misstep (margin + more) (place.deepen more) tokens error := by
  cases misstep with
  | unexpected path refused => exact .unexpected (path.deepen more) refused
  | unclosed path inside => exact .unclosed (path.deepen more) (Nat.add_le_add_right inside more)

theorem transfer {context other : Context} (misstep : Misstep 1 ⟨context, 0⟩ tokens error)
    (agree : ∀ token left, skipSpaces tokens = token :: left → context.AgreeOn other token) :
    Misstep 1 ⟨other, 0⟩ tokens error := by
  cases misstep with
  | @unexpected target token rest path refused =>
      rcases path.transfer agree with path | ⟨rfl, same⟩
      · exact .unexpected path refused
      · have visible : token ≠ .space := by rintro rfl; simp [Context.admits] at refused
        rw [skipSpaces_cons rest visible] at same
        obtain ⟨admits, _⟩ := agree token rest same.symm
        have reached := Path.spaces ⟨other, 0⟩ tokens
        rw [← same] at reached
        exact .unexpected reached (admits.symm.trans refused)
  | unclosed path inside =>
      rcases path.transfer agree with path | ⟨rfl, _⟩
      · exact .unclosed path inside
      · contradiction

end Misstep

end ComplexCalculator.Grammar
