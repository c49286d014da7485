import Mathlib
import ComplexCalculator.Proofs.Grammar.Leading
import ComplexCalculator.Proofs.Grammar.Negation
import ComplexCalculator.Proofs.Lexeme.Written

/-!
Two signs in one.

Two signs with a space between them stand somewhere in a list of tokens, and another list has one
sign in their place. `Folds` relates the two lists where a rule may be called on them. If the sign
means the same wherever a sum goes on or begins, then what is read of the first list is read of
the second: `parse_folds`.
-/

namespace ComplexCalculator.Grammar

variable {V ε : Type}

/-- Two signs, `true` for a minus, and the tokens behind them. -/
structure Signs where
  first : Bool
  second : Bool
  back : List Token

namespace Signs

variable (signs : Signs)

def parted : List Token :=
  Token.ofSign signs.first :: .space :: Token.ofSign signs.second :: signs.back

/-- One sign in the place of both: a minus, if one of them is. -/
def folded : List Token := Token.ofSign (signs.first ^^ signs.second) :: signs.back

def BothMinus : Prop := signs.first = true ∧ signs.second = true

/-- The lists go on with the same visible token, unless two minus signs become a plus. -/
def SameHead (tokens tokens' : List Token) : Prop :=
  signs.BothMinus → (skipSpaces tokens).head? = (skipSpaces tokens').head?

/-- The same tokens with one sign in the place of two. The two signs are not in a literal, and
two minus signs do not stand where an operand is to follow. -/
inductive Folds : List Token → List Token → Prop where
  | nil : Folds [] []
  | here : Folds signs.parted signs.folded
  | token {token : Token} {tokens tokens' : List Token}
      (other : ∀ text, token ≠ .number text) (behind : Folds tokens tokens')
      (operand : AwaitsOperand token → signs.SameHead tokens tokens') :
      Folds (token :: tokens) (token :: tokens')
  | number (text : String) {tokens tokens' : List Token}
      (same : (spelling text tokens).1 = (spelling text tokens').1)
      (behind : Folds (spelling text tokens).2 (spelling text tokens').2) :
      Folds (.number text :: tokens) (.number text :: tokens')

/-- Lists that begin with the same visible token, or end. -/
inductive Aligned : List Token → List Token → Prop where
  | nil : Aligned [] []
  | token {token : Token} {tokens tokens' : List Token} (visible : token ≠ .space)
      (other : ∀ text, token ≠ .number text) (behind : signs.Folds tokens tokens')
      (operand : AwaitsOperand token → signs.SameHead tokens tokens') :
      Aligned (token :: tokens) (token :: tokens')
  | number (text : String) {tokens tokens' : List Token}
      (same : (spelling text tokens).1 = (spelling text tokens').1)
      (behind : signs.Folds (spelling text tokens).2 (spelling text tokens').2) :
      Aligned (.number text :: tokens) (.number text :: tokens')

variable {signs} {tokens tokens' : List Token}

theorem Folds.refl (tokens : List Token) : signs.Folds tokens tokens := by
  induction size : tokens.length using Nat.strongRecOn generalizing tokens with
  | ind size ih =>
      subst size
      cases tokens with
      | nil => exact .nil
      | cons head rest =>
          by_cases number : ∃ text, head = .number text
          · obtain ⟨text, rfl⟩ := number
            have shorter := (spelling_suffix text rest).length_le
            exact .number text rfl (ih _ (Nat.lt_succ_of_le shorter) _ rfl)
          · exact .token (fun text same => number ⟨text, same⟩)
              (ih _ (Nat.lt_succ_self _) rest rfl) fun _ _ => rfl

theorem Aligned.folds (aligned : signs.Aligned tokens tokens') : signs.Folds tokens tokens' := by
  cases aligned with
  | nil => exact .nil
  | token _ other behind operand => exact .token other behind operand
  | number text same behind => exact .number text same behind

theorem Aligned.sameHead (aligned : signs.Aligned tokens tokens') :
    signs.SameHead tokens tokens' := by
  cases aligned with
  | nil => exact fun _ => rfl
  | token visible =>
      intro _
      rw [skipSpaces_cons _ visible, skipSpaces_cons _ visible]
      rfl
  | number => exact fun _ => rfl

theorem Folds.atEnd (folds : signs.Folds tokens tokens') :
    Grammar.atEnd tokens = Grammar.atEnd tokens' := by
  cases folds with
  | here =>
      obtain ⟨first, second, back⟩ := signs
      cases first <;> cases second <;> rfl
  | _ => rfl

theorem skipSpaces_parted (signs : Signs) : skipSpaces signs.parted = signs.parted := by
  obtain ⟨first, second, back⟩ := signs
  cases first <;> rfl

theorem skipSpaces_folded (signs : Signs) : skipSpaces signs.folded = signs.folded := by
  obtain ⟨first, second, back⟩ := signs
  cases first <;> cases second <;> rfl

theorem Folds.skipSpaces (folds : signs.Folds tokens tokens') :
    (Grammar.skipSpaces tokens = signs.parted ∧ Grammar.skipSpaces tokens' = signs.folded) ∨
      signs.Aligned (Grammar.skipSpaces tokens) (Grammar.skipSpaces tokens') := by
  induction folds with
  | nil => exact .inr .nil
  | here => exact .inl ⟨signs.skipSpaces_parted, signs.skipSpaces_folded⟩
  | @token token tokens tokens' other behind operand ih =>
      by_cases space : token = .space
      · subst space
        exact ih
      · rw [skipSpaces_cons _ space, skipSpaces_cons _ space]
        exact .inr (.token space other behind operand)
  | number text same behind => exact .inr (.number text same behind)

theorem Folds.skipSpacesAndPluses (folds : signs.Folds tokens tokens') :
    (Grammar.skipSpacesAndPluses tokens = Grammar.skipSpacesAndPluses signs.parted ∧
      Grammar.skipSpacesAndPluses tokens' = Grammar.skipSpacesAndPluses signs.folded) ∨
      signs.Aligned (Grammar.skipSpacesAndPluses tokens)
        (Grammar.skipSpacesAndPluses tokens') := by
  induction folds with
  | nil => exact .inr .nil
  | here => exact .inl ⟨rfl, rfl⟩
  | @token token tokens tokens' other behind operand ih =>
      cases token with
      | space | plus => exact ih
      | _ => exact .inr (.token (by simp) other behind operand)
  | number text same behind => exact .inr (.number text same behind)

end Signs

/-- Wherever a sum begins or goes on, the one sign gives the value that the two signs give. -/
structure Signs.Turns (signs : Signs) (semantics : Semantics V ε) : Prop where
  group : ∀ result, read semantics .group signs.parted = .ok result →
    read semantics .group signs.folded = .ok result
  sum : ∀ result, read semantics .sum signs.parted = .ok result →
    read semantics .sum signs.folded = .ok result
  sumTail : ∀ left result, read semantics (.sumTail left) signs.parted = .ok result →
    read semantics (.sumTail left) signs.folded = .ok result

theorem read_group_skip (semantics : Semantics V ε) {tokens tokens' : List Token}
    (same : skipSpacesAndPluses tokens = skipSpacesAndPluses tokens') :
    read semantics .group tokens = read semantics .group tokens' := by
  rw [read_eq_step, read_eq_step, step, step, same]

/-- A plus sign that an operator or a function is to be applied to is refused. -/
theorem read_atom_plus (semantics : Semantics V ε) (tokens : List Token) :
    read semantics .atom (.plus :: tokens) = .error (.malformed (.unexpected "+" tokens)) := by
  rw [read_eq_step]
  rfl

/-- In the place of an operand the two signs are malformed, unless both are minus signs. -/
theorem Signs.not_read_atom {signs : Signs} (semantics : Semantics V ε)
    (other : ¬ signs.BothMinus) (result : V × List Token) :
    read semantics .atom signs.parted ≠ .ok result := by
  obtain ⟨first, second, back⟩ := signs
  cases first with
  | false =>
      change read semantics .atom (.plus :: _) ≠ _
      rw [read_atom_plus]
      exact nofun
  | true =>
      cases second with
      | false =>
          change read semantics .atom (.minus :: .space :: .plus :: _) ≠ _
          rw [read_atom_minus, read_atom_space, read_atom_plus]
          exact nofun
      | true => exact absurd ⟨rfl, rfl⟩ other

theorem Signs.not_sameHead {signs : Signs} (both : signs.BothMinus) :
    ¬ signs.SameHead signs.parted signs.folded := by
  obtain ⟨first, second, back⟩ := signs
  obtain ⟨rfl, rfl⟩ := both
  intro same
  exact absurd (same ⟨rfl, rfl⟩) (by simp [parted, folded, Token.ofSign, skipSpaces])

variable {signs : Signs} {semantics : Semantics V ε}

/-- The places where an operand may be called for. -/
def Signs.FoldsOperand (signs : Signs) (tokens tokens' : List Token) : Prop :=
  signs.Folds tokens tokens' ∧ signs.SameHead tokens tokens'

def Signs.Turned (signs : Signs) (tokens tokens' : List Token) : Prop :=
  tokens = signs.parted ∧ tokens' = signs.folded

theorem Signs.Aligned.start {tokens tokens' : List Token} (aligned : signs.Aligned tokens tokens') :
    SameStart signs.Folds signs.FoldsOperand tokens tokens' := by
  cases aligned with
  | nil => exact .nil
  | token visible other behind operand =>
      exact .token visible other behind fun awaits => ⟨behind, operand awaits⟩
  | number text same behind => exact .number text same behind

/-- What is read over two signs is read over the one in their place. -/
theorem Signs.Turns.leading (turns : signs.Turns semantics) :
    Leading semantics signs.Folds signs.FoldsOperand signs.Turned where
  toBehind := And.left
  atEnd := Signs.Folds.atEnd
  skipSpaces folds :=
    folds.skipSpaces.imp id fun aligned => ⟨aligned.start, aligned.folds, aligned.sameHead⟩
  group folds := by
    rcases folds.skipSpacesAndPluses with ⟨front, front'⟩ | aligned
    · rw [read_group_skip semantics front, read_group_skip semantics front']
      exact .inl fun value rest found => ⟨rest, turns.group _ found, .refl rest⟩
    · exact .inr ⟨aligned.start, aligned.folds⟩
  signs := by
    rintro _ _ ⟨rfl, rfl⟩
    exact ⟨.here, _, _, _, _, rfl, rfl⟩
  sum := by
    rintro _ _ ⟨rfl, rfl⟩ value rest found
    exact ⟨rest, turns.sum _ found, .refl rest⟩
  sumTail left := by
    rintro _ _ ⟨rfl, rfl⟩ value rest found
    exact ⟨rest, turns.sumTail left _ found, .refl rest⟩
  atom := by
    rintro tokens tokens' ⟨-, head⟩ ⟨front, front'⟩ result found
    have other : ¬ signs.BothMinus := by
      intro both
      refine Signs.not_sameHead both fun both => ?_
      rw [signs.skipSpaces_parted, signs.skipSpaces_folded, ← front, ← front']
      exact head both
    rw [read_atom_skipSpaces, front] at found
    exact Signs.not_read_atom semantics other _ found

theorem Signs.Folds.nil_left {tokens : List Token} (folds : signs.Folds [] tokens) :
    tokens = [] := by
  generalize empty : ([] : List Token) = given at folds
  cases folds with
  | nil => rfl
  | here => cases empty
  | token => cases empty
  | number => cases empty

/-- An expression with two signs keeps its value with the one in their place. -/
theorem parse_folds (turns : signs.Turns semantics) {tokens tokens' : List Token}
    (folds : signs.Folds (tokens ++ [.closing]) (tokens' ++ [.closing])) {value : V}
    (parsed : parse semantics tokens = .ok value) : parse semantics tokens' = .ok value :=
  parse_leads turns.leading Signs.Folds.nil_left folds parsed

section Places

variable {front tokens : List Token} {token : Token} {text : String}

/-- The last tokens are a number and `e`, so that a sign and a whole number behind them are the
exponent of a literal. A number that is itself an exponent begins no literal. -/
inductive AwaitsExponent : List Token → Prop where
  | last (text : String) : AwaitsExponent [.number text, .euler]
  | token {token : Token} {tokens : List Token} (other : ∀ text, token ≠ .number text)
      (behind : AwaitsExponent tokens) : AwaitsExponent (token :: tokens)
  | number (text : String) {tokens : List Token}
      (behind : AwaitsExponent (spelling text tokens).2) : AwaitsExponent (.number text :: tokens)

theorem AwaitsExponent.getLast? (awaits : AwaitsExponent tokens) :
    tokens.getLast? = some .euler := by
  induction awaits with
  | last text => rfl
  | token other behind ih =>
      rw [List.getLast?_cons, ih]
      rfl
  | @number text tokens behind ih =>
      obtain ⟨before, same⟩ := spelling_suffix text tokens
      rw [List.getLast?_cons, ← same, List.getLast?_append, ih]
      rfl

/-- Whole digits at the front of the tokens, as in an exponent. -/
def BeginsWhole (tokens : List Token) : Prop :=
  ∃ digits rest, tokens = .number digits :: rest ∧ digits.toList.all Char.isDigit = true

theorem not_beginsExponent_parted (signs : Signs) (plain : ¬ BeginsExponent front) :
    ¬ BeginsExponent (front ++ signs.parted) := by
  obtain ⟨first, second, back⟩ := signs
  rintro ⟨sign, number, rest, split, exponent⟩
  have notSpace : number ≠ .space := by
    obtain ⟨-, digits, rfl, -⟩ := exponent
    simp
  match front with
  | [] => cases first <;> cases split
  | [_] =>
      simp only [Signs.parted, List.cons_append, List.nil_append, List.cons.injEq] at split
      exact notSpace split.2.2.1.symm
  | [_, _] =>
      simp only [Signs.parted, List.cons_append, List.nil_append, List.cons.injEq] at split
      obtain ⟨-, digits, rfl, -⟩ := exponent
      cases first <;> cases split.2.2.1
  | _ :: _ :: _ :: front =>
      cases split
      exact plain ⟨_, _, front, rfl, exponent⟩

theorem not_beginsExponent_folded {signs : Signs} (plain : ¬ BeginsExponent front)
    (literal : front = [.euler] → ¬ BeginsWhole signs.back) :
    ¬ BeginsExponent (front ++ signs.folded) := by
  obtain ⟨first, second, back⟩ := signs
  rintro ⟨sign, number, rest, split, exponent⟩
  match front with
  | [] =>
      simp only [Signs.folded, List.nil_append, List.cons.injEq] at split
      generalize (first ^^ second) = negative at split
      cases negative <;> cases split.1
  | [_] =>
      simp only [Signs.folded, List.cons_append, List.nil_append, List.cons.injEq] at split
      obtain ⟨rfl, -, rfl⟩ := split
      obtain ⟨-, digits, rfl, whole⟩ := exponent
      exact literal rfl ⟨digits, rest, rfl, whole⟩
  | [_, _] =>
      simp only [Signs.folded, List.cons_append, List.nil_append, List.cons.injEq] at split
      obtain ⟨-, -, sign, -⟩ := split
      obtain ⟨-, digits, rfl, -⟩ := exponent
      generalize (first ^^ second) = negative at sign
      cases negative <;> cases sign
  | _ :: _ :: _ :: front =>
      cases split
      exact plain ⟨_, _, front, rfl, exponent⟩

theorem previous_of_suffix {rest : List Token} {last : Token} (suffix : rest <:+ tokens)
    (found : previous rest = some last) : previous tokens = some last := by
  obtain ⟨front, rfl⟩ := suffix
  rw [previous] at found
  simp only [previous, visible, List.filter_append, List.getLast?_append] at found ⊢
  rw [found, Option.some_or]

theorem previous_cons_of_none (shown : token ≠ .space) (nothing : previous tokens = none) :
    previous (token :: tokens) = some token := by
  have empty : visible tokens = [] := List.getLast?_eq_none_iff.mp nothing
  have one : visible (token :: tokens) = token :: visible tokens := by simp [visible, shown]
  rw [previous, one, empty]
  rfl

/-- Behind the last visible token the lists part at once, otherwise not. -/
theorem Signs.sameHead_append {signs : Signs} (shown : previous front ≠ none) :
    signs.SameHead (front ++ signs.parted) (front ++ signs.folded) := by
  intro _
  induction front with
  | nil => exact absurd rfl shown
  | cons token front ih =>
      by_cases space : token = .space
      · subst space
        exact ih shown
      · rw [List.cons_append, List.cons_append, skipSpaces_cons _ space, skipSpaces_cons _ space]
        rfl

end Places

/-- The sign can stand for the two: it does not become the sign of an exponent; it does not stand
for two minus signs where an operand is to follow; and where it does, the factors behind it are
not the base of a power, unless another minus sign precedes them. -/
structure Signs.Foldable (signs : Signs) (front : List Token) : Prop where
  literal : AwaitsExponent front → ¬ BeginsWhole signs.back
  operand : signs.BothMinus → ∀ last, previous front = some last → ¬ AwaitsOperand last
  power : signs.BothMinus → LeadsToPower signs.back →
    (skipSpaces signs.back).head? = some .minus

namespace Signs.Foldable

variable {front : List Token}

theorem behind {token : Token} (foldable : signs.Foldable (token :: front))
    (other : ∀ text, token ≠ .number text) : signs.Foldable front where
  literal awaits := foldable.literal (.token other awaits)
  operand both last found :=
    foldable.operand both last (previous_of_suffix (List.suffix_cons token front) found)
  power := foldable.power

theorem behind_number {text : String} (foldable : signs.Foldable (.number text :: front)) :
    signs.Foldable (spelling text front).2 where
  literal awaits := foldable.literal (.number text awaits)
  operand both last found :=
    have suffix := (spelling_suffix text front).trans (List.suffix_cons (.number text) front)
    foldable.operand both last (previous_of_suffix suffix found)
  power := foldable.power

theorem sameHead {token : Token} (foldable : signs.Foldable (token :: front))
    (awaits : AwaitsOperand token) :
    signs.SameHead (front ++ signs.parted) (front ++ signs.folded) := by
  intro both
  have visible : token ≠ .space := by
    rintro rfl
    simp [AwaitsOperand] at awaits
  refine Signs.sameHead_append (fun nothing => ?_) both
  exact foldable.operand both token (previous_cons_of_none visible nothing) awaits

/-- A literal before the signs is the same with one sign in their place. -/
theorem spelling {text : String} (foldable : signs.Foldable (.number text :: front)) :
    ∃ spelled, Grammar.spelling text (front ++ signs.parted) =
        (spelled, (Grammar.spelling text front).2 ++ signs.parted) ∧
      Grammar.spelling text (front ++ signs.folded) =
        (spelled, (Grammar.spelling text front).2 ++ signs.folded) := by
  by_cases begins : BeginsExponent front
  · obtain ⟨sign, number, rest, rfl, exponent⟩ := begins
    obtain ⟨spelled, same⟩ := spelling_of_exponent text exponent
    simp only [List.cons_append, same]
    exact ⟨spelled, rfl, rfl⟩
  · have parted := not_beginsExponent_parted signs begins
    have folded : ¬ BeginsExponent (front ++ signs.folded) := by
      refine not_beginsExponent_folded begins ?_
      rintro rfl
      exact foldable.literal (.last text)
    rw [spelling_of_not_begins text parted, spelling_of_not_begins text folded,
      spelling_of_not_begins text begins]
    exact ⟨text, rfl, rfl⟩

theorem folds (foldable : signs.Foldable front) :
    signs.Folds (front ++ signs.parted) (front ++ signs.folded) := by
  induction size : front.length using Nat.strongRecOn generalizing front with
  | ind size ih =>
      subst size
      cases front with
      | nil => exact .here
      | cons token front =>
          by_cases number : ∃ text, token = .number text
          · obtain ⟨text, rfl⟩ := number
            obtain ⟨spelled, parted, folded⟩ := foldable.spelling
            have shorter := (spelling_suffix text front).length_le
            have behind := ih _ (Nat.lt_succ_of_le shorter) foldable.behind_number rfl
            refine .number text ?_ ?_
            · rw [List.append_eq, List.append_eq, parted, folded]
            · rw [List.append_eq, List.append_eq, parted, folded]
              exact behind
          · have other : ∀ text, token ≠ .number text := fun text same => number ⟨text, same⟩
            exact .token other (ih _ (Nat.lt_succ_self _) (foldable.behind other) rfl)
              fun awaits => foldable.sameHead awaits

end Signs.Foldable

end ComplexCalculator.Grammar
