import ComplexCalculator.Proofs.Grammar.Calls
import ComplexCalculator.Proofs.Grammar.Locality

namespace ComplexCalculator.Grammar

variable {V ε : Type}

/-- As many parentheses are closed as opened, and none before it is opened. -/
structure Balanced (tokens : List Token) : Prop where
  covered : ∀ front, front <+: tokens → front.count .closing ≤ front.count .opening
  balanced : tokens.count .closing = tokens.count .opening

/-- The parentheses match in what stands before the rest. -/
def TakesBalanced (tokens rest : List Token) : Prop :=
  ∃ segment, tokens = segment ++ rest ∧ Balanced segment

/-- The rest stands behind the parenthesis that closes the group in which the tokens begin. -/
def EndsGroup (tokens rest : List Token) : Prop :=
  ∃ content, tokens = content ++ .closing :: rest ∧ Balanced content

section Segments

variable {context other : Context} {tokens rest : List Token}

theorem Path.balanced (path : Path ⟨context, 0⟩ tokens ⟨other, 0⟩ []) : Balanced tokens where
  covered := by
    intro front holds
    obtain ⟨rest, rfl⟩ := holds
    obtain ⟨next, first, -⟩ := path.split
    have depth := first.depth_eq
    simp only [Nat.zero_add] at depth
    omega
  balanced := by simpa using path.depth_eq

theorem Path.takesBalanced (path : Path ⟨context, 0⟩ tokens ⟨other, 0⟩ rest) :
    TakesBalanced tokens rest := by
  obtain ⟨segment, rfl⟩ := path.exists_front
  exact ⟨segment, rfl, path.of_append.balanced⟩

/-- A balanced front ends no further on than another one behind which a parenthesis closes: with
that parenthesis it would close more than it opens. -/
theorem Balanced.length_le {content larger behind : List Token} (balanced : Balanced content)
    (enclosing : Balanced larger)
    (same : content ++ .closing :: rest = larger ++ .closing :: behind) :
    larger.length ≤ content.length := by
  by_contra longer
  have inside : content ++ [.closing] <+: larger := by
    have closed : content ++ [.closing] <+: larger ++ .closing :: behind :=
      ⟨rest, by simp [← same]⟩
    refine List.prefix_of_prefix_length_le closed (List.prefix_append _ _) ?_
    simpa using Nat.lt_of_not_le longer
  have covered := enclosing.covered _ inside
  have balance := balanced.balanced
  have closes : [Token.closing].count .closing = 1 := rfl
  have opens : [Token.closing].count .opening = 0 := rfl
  rw [List.count_append, List.count_append] at covered
  omega

theorem EndsGroup.unique {other : List Token} (ends : EndsGroup tokens rest)
    (ends' : EndsGroup tokens other) : other = rest := by
  obtain ⟨content, split, balanced⟩ := ends
  obtain ⟨content', split', balanced'⟩ := ends'
  have same := split.symm.trans split'
  have length : content.length = content'.length :=
    Nat.le_antisymm (balanced'.length_le balanced same.symm) (balanced.length_le balanced' same)
  exact (List.cons.inj (List.append_inj same length).2).2.symm

end Segments

section Readings

variable {semantics : Semantics V ε} {reading : Reading V ε} {context : Context}
variable {tokens rest : List Token} {value : V} {stops : List Token → Prop}

theorem Reading.Runs.hands_over (runs : reading.Runs ⟨context, 0⟩ tokens stops)
    (found : reading = .ok (value, rest)) : stops rest ∧ TakesBalanced tokens rest := by
  subst found
  obtain ⟨path, here⟩ := runs
  exact ⟨here, path.takesBalanced⟩

theorem Reading.Groups.endsGroup (groups : reading.Groups tokens)
    (found : reading = .ok (value, rest)) : EndsGroup tokens rest := by
  subst found
  obtain ⟨context, -, path⟩ := groups
  obtain ⟨content, split, balanced⟩ := path.takesBalanced
  exact ⟨content, split, balanced⟩

/-- Behind the base of a power stands no exponent that was not read, wherever the base stopped. -/
theorem followsPower_of_read_powerTail [Nonempty ε] {base : V} (ended : Ended tokens)
    (found : read semantics (.powerTail base) tokens = .ok (value, rest)) : FollowsPower rest := by
  rw [read_eq_step] at found
  simp only [step] at found
  split at found
  · rename_i behind front
    obtain ⟨nonempty, endedBehind⟩ := ended.behind front (by simp)
    have runs := read_contract semantics .power behind nonempty endedBehind
    cases power : read semantics .power behind with
    | error failure =>
        rw [power] at found
        cases found
    | ok result =>
        obtain ⟨exponent, left⟩ := result
        rw [power] at found
        have stops := (runs.hands_over power).1
        change compute (semantics.pow base exponent) left = _ at found
        unfold compute at found
        split at found
        · cases found
          exact stops
        · cases found
  · rename_i notCaret
    cases found
    exact followsPower_skipSpaces notCaret

end Readings

/-- Read from any place before the end of tokens that end with a closing parenthesis, each rule
stops where the rule around it goes on: an atom before an operator, a space or a closing
parenthesis, a power before no space and no caret, a product before a sign or a closing
parenthesis, a sum before a closing parenthesis, each of them unless all is read, and a group
behind the parenthesis that closes it. -/
theorem read_hands_over (whole : List Token) (last : whole.getLast? = some .closing)
    (position : Nat) (before : position < whole.length) (value : Complex) (rest : List Token) :
    let tokens := whole.drop position
    let Gives (rule : Rule Complex) := read Complex.semantics rule tokens = .ok (value, rest)
    (Gives .atom → FollowsAtom rest ∧ TakesBalanced tokens rest) ∧
      (Gives .power → FollowsPower rest ∧ TakesBalanced tokens rest) ∧
      (∀ base, Gives (.powerTail base) → FollowsPower rest) ∧
      (Gives .product → FollowsProduct rest ∧ TakesBalanced tokens rest) ∧
      (Gives .sum → FollowsSum rest ∧ TakesBalanced tokens rest) ∧
      (Gives .group → EndsGroup tokens rest ∧ ∀ other, EndsGroup tokens other → other = rest) := by
  intro tokens Gives
  have nonempty : tokens ≠ [] := by simpa [tokens] using before
  have endedWhole : Ended whole := by
    intro token found
    rw [last] at found
    exact (Option.some.inj found).symm
  have ended : Ended tokens := endedWhole.of_suffix (List.drop_suffix position whole)
  have contract (rule : Rule Complex) := read_contract Complex.semantics rule tokens
  refine ⟨?_, ?_, ?_, ?_, ?_, ?_⟩
  · intro found
    exact (contract .atom nonempty ended).hands_over found
  · intro found
    exact (contract .power nonempty ended).hands_over found
  · intro base found
    exact followsPower_of_read_powerTail ended found
  · intro found
    exact (contract .product nonempty ended).hands_over found
  · intro found
    exact (contract .sum nonempty ended).hands_over found
  · intro found
    have ends := (contract .group nonempty ended).endsGroup found
    exact ⟨ends, fun other ends' => ends.unique ends'⟩

/-- In `j+(6/2)(3) 2-)` the product behind the plus sign stops at the minus sign. -/
theorem read_hands_over_product :
    let whole := [.imaginaryUnit, .plus, .opening, .number "6", .slash, .number "2", .closing,
      .opening, .number "3", .closing, .space, .number "2", .minus, .closing]
    let tokens := whole.drop 2
    let rest := [.minus, .closing]
    whole.getLast? = some .closing ∧ 2 < whole.length ∧
      read Complex.semantics .product tokens = .ok (⟨18, 0⟩, rest) ∧
      FollowsProduct rest ∧ TakesBalanced tokens rest := by
  intro whole tokens rest
  have last : whole.getLast? = some .closing := rfl
  have before : 2 < whole.length := by decide
  have found : read Complex.semantics .product tokens = .ok (⟨18, 0⟩, rest) := by decide +kernel
  obtain ⟨-, -, -, product, -⟩ := read_hands_over whole last 2 before ⟨18, 0⟩ rest
  exact ⟨last, before, found, product found⟩

end ComplexCalculator.Grammar
