import Mathlib
import ComplexCalculator.Proofs.Elementary
import ComplexCalculator.Proofs.Grammar.Acceptance
import ComplexCalculator.Proofs.Grammar.Exchange
import ComplexCalculator.Proofs.Grammar.Trees
import ComplexCalculator.Proofs.Lexeme.Stops

namespace ComplexCalculator.Grammar

variable {V ε : Type} {semantics : Semantics V ε} {tokens exponent : List Token}
variable {value right result : V}

/-- Tokens that are read as one power with this value, up to the parenthesis that closes them. -/
structure IsPower (semantics : Semantics V ε) (tokens : List Token) (value : V) : Prop where
  begins : atEnd tokens = false
  reads : ∀ rest, read semantics .power (tokens ++ .closing :: rest) =
    .ok (value, .closing :: rest)

theorem IsAtom.isPower (atom : IsAtom semantics tokens value) : IsPower semantics tokens value where
  begins := atom.begins
  reads rest := by
    rw [read_eq_step, step, atom.reads _ rfl]
    exact read_powerTail_ends (.closing rest)

theorem IsAtom.pow (base : IsAtom semantics tokens value)
    (raised : IsPower semantics exponent right)
    (power : semantics.pow value right = .ok result) :
    IsPower semantics (tokens ++ .caret :: exponent) result where
  begins := begins_append base.begins _
  reads rest := by
    have split : tokens ++ Token.caret :: exponent ++ .closing :: rest =
        tokens ++ .caret :: (exponent ++ .closing :: rest) := by simp
    have tail : read semantics (.powerTail value) (.caret :: (exponent ++ .closing :: rest)) =
        .ok (result, .closing :: rest) := by
      rw [read_eq_step, step]
      simp only [skipSpaces, raised.reads rest, Reading.andThen, compute, power]
    rw [split, read_eq_step, step, base.reads _ rfl]
    exact tail

theorem IsAtom.exp (argument : IsAtom semantics tokens value)
    (exponential : semantics.exp value = .ok result) :
    IsAtom semantics (.exp :: tokens) result where
  begins := rfl
  reads rest ends := by
    rw [List.cons_append, read_eq_step, step]
    simp only [skipSpaces, argument.reads rest ends, Reading.andThen, compute, exponential]

theorem IsPower.parse (power : IsPower semantics tokens value) :
    parse semantics tokens = .ok value := by
  have begins := begins_append power.begins [.closing]
  have product : read semantics .product (tokens ++ [.closing]) = .ok (value, [.closing]) := by
    rw [read_eq_step, step, power.reads []]
    exact read_productTail_ends (.closing [])
  have group : read semantics .group (tokens ++ [.closing]) = .ok (value, []) := by
    rw [read_group_begins begins, read_sum_begins begins, product]
    change (read semantics (.sumTail value) [.closing]).andThen closeGroup = _
    rw [read_sumTail_closing]
    rfl
  rw [Grammar.parse, group]

namespace Expr

/-- Where nothing fails, a tree stands for itself. -/
theorem eval_limited (tree : Expr) : tree.eval (limited fun _ => true) = .ok tree := by
  induction tree with
  | number | euler | imaginaryUnit | zero | one => rfl
  | exp argument ih | ln argument ih | neg argument ih =>
      simp only [eval, ih]
      rfl
  | add left right first second | sub left right first second | mul left right first second
  | div left right first second | pow left right first second =>
      simp only [eval, first, second]
      rfl

theorem wellPlaced {tree : Expr} (parses : parse tokens = .ok tree) : WellPlaced tokens := by
  have : Nonempty Expr := ⟨tree⟩
  have built : Grammar.parse (limited fun _ => true) tokens = .ok tree := by
    rw [parse_of_tree parses, eval_limited]
    rfl
  exact wellPlaced_of_parse built

end Expr

/-- The tokens of a numeral or of π, of the imaginary unit, of the constant `e`, or of an
expression in parentheses. -/
inductive IsOperand : List Token → Prop where
  | literal (literal : Decimal.Literal) : IsOperand literal.tokens
  | imaginaryUnit : IsOperand [.imaginaryUnit]
  | euler : IsOperand [.euler]
  | group {inside : List Token} {tree : Expr} (parses : Expr.parse inside = .ok tree) :
      IsOperand (enclosed inside)

namespace IsOperand

variable (operand : IsOperand tokens)

include operand

theorem isAtom : ∃ tree, IsAtom Expr.builder tokens tree := by
  cases operand with
  | literal literal => exact ⟨_, isAtom_literal literal rfl⟩
  | imaginaryUnit => exact ⟨_, isAtom_imaginaryUnit⟩
  | euler => exact ⟨_, isAtom_euler⟩
  | group parses => exact ⟨_, isAtom_enclosed parses⟩

theorem known (word : String) : .unknown word ∉ tokens := by
  cases operand with
  | literal literal =>
      unfold Decimal.Literal.tokens Token.ofSign
      aesop
  | imaginaryUnit | euler => simp
  | group parses => simpa [enclosed] using (Expr.wellPlaced parses).known word

theorem getLast? (other : tokens ≠ [.euler]) : tokens.getLast? ≠ some .euler := by
  cases operand with
  | literal literal =>
      unfold Decimal.Literal.tokens
      cases literal.power <;> simp
  | imaginaryUnit => simp
  | euler => exact absurd rfl other
  | @group inside _ _ =>
      rw [enclosed, ← List.cons_append, List.getLast?_concat]
      simp

end IsOperand

/-- The tokens of a power. A caret behind `e` alone makes the exponential of it. -/
def raised (base exponent : List Token) : List Token :=
  if base = [.euler] then .exp :: exponent else base ++ .caret :: exponent

/-- The tokens of operands with carets between them. -/
def towerTokens : List (List Token) → List Token
  | [] => []
  | [operand] => operand
  | operand :: next :: rest => raised operand (towerTokens (next :: rest))

section Towers

variable {operand : List Token} {operands : List (List Token)}

theorem towerTokens_cons (nonempty : operands ≠ []) :
    towerTokens (operand :: operands) = raised operand (towerTokens operands) := by
  cases operands with
  | nil => exact absurd rfl nonempty
  | cons next rest => rfl

/-- Behind exponentials of `e` alone the tower goes on with the power behind the first other
operand. -/
theorem towerTokens_append {eulers behind : List (List Token)}
    (euler : ∀ operand ∈ eulers, operand = [.euler]) (other : operand ≠ [.euler])
    (nonempty : behind ≠ []) :
    towerTokens (eulers ++ operand :: behind) =
      towerTokens (eulers ++ [operand]) ++ .caret :: towerTokens behind := by
  induction eulers with
  | nil =>
      rw [List.nil_append, towerTokens_cons nonempty, raised, if_neg other]
      rfl
  | cons first eulers ih =>
      simp only [List.mem_cons, forall_eq_or_imp] at euler
      obtain ⟨rfl, euler⟩ := euler
      rw [List.cons_append, List.cons_append, towerTokens_cons (by simp),
        towerTokens_cons (by simp), ih euler]
      rfl

theorem exists_first_operand (nonempty : operands ≠ []) :
    ∃ eulers operand behind, operands = eulers ++ operand :: behind ∧
      (∀ other ∈ eulers, other = [.euler]) ∧ (operand ≠ [.euler] ∨ behind = []) := by
  induction operands with
  | nil => exact absurd rfl nonempty
  | cons first rest ih =>
      by_cases last : first ≠ [.euler] ∨ rest = []
      · exact ⟨[], first, rest, rfl, nofun, last⟩
      · simp only [not_or, not_not] at last
        obtain ⟨rfl, goesOn⟩ := last
        obtain ⟨eulers, operand, behind, rfl, euler, last⟩ := ih goesOn
        exact ⟨[.euler] :: eulers, operand, behind, rfl, by simpa using euler, last⟩

theorem isAtom_tower {eulers : List (List Token)} (euler : ∀ operand ∈ eulers, operand = [.euler])
    (last : IsOperand operand) :
    ∃ tree, IsAtom Expr.builder (towerTokens (eulers ++ [operand])) tree := by
  induction eulers with
  | nil => exact last.isAtom
  | cons first eulers ih =>
      simp only [List.mem_cons, forall_eq_or_imp] at euler
      obtain ⟨rfl, euler⟩ := euler
      obtain ⟨tree, atom⟩ := ih euler
      rw [List.cons_append, towerTokens_cons (by simp)]
      exact ⟨.exp tree, atom.exp rfl⟩

/-- The operands up to the first one that is not `e`, or to the last one, are one atom, and the
others are its exponent. -/
theorem isPower_tower (known : ∀ operand ∈ operands, IsOperand operand) (nonempty : operands ≠ []) :
    ∃ tree, IsPower Expr.builder (towerTokens operands) tree := by
  induction size : operands.length using Nat.strongRecOn generalizing operands with
  | ind size ih =>
      subst size
      obtain ⟨eulers, operand, behind, rfl, euler, other⟩ := exists_first_operand nonempty
      obtain ⟨base, atom⟩ := isAtom_tower euler (known operand (by simp))
      by_cases last : behind = []
      · subst last
        exact ⟨base, atom.isPower⟩
      · have shorter : behind.length < (eulers ++ operand :: behind).length := by simp +arith
        obtain ⟨exponent, power⟩ := ih _ shorter (fun next member => known next (by simp [member]))
          last rfl
        rw [towerTokens_append euler (other.resolve_right last) last]
        exact ⟨.pow base exponent, atom.pow power rfl⟩

/-- Two towers that are the same tree. -/
def SameTree (tokens tokens' : List Token) : Prop :=
  ∃ tree, Expr.parse tokens = .ok tree ∧ Expr.parse tokens' = .ok tree

/-- The exponent of a tower may stand in parentheses, unless the exponential of `e` takes a part of
it only. -/
theorem sameTree_exponent (base : IsOperand operand)
    (known : ∀ operand ∈ operands, IsOperand operand) (nonempty : operands ≠ [])
    (whole : operand = [.euler] → ∀ other ∈ operands.dropLast, other = [.euler]) :
    SameTree (towerTokens (operand :: operands))
      (towerTokens [operand, enclosed (towerTokens operands)]) := by
  rw [towerTokens_cons nonempty, towerTokens_cons (by simp)]
  by_cases euler : operand = [.euler]
  · rw [← List.dropLast_append_getLast nonempty] at known ⊢
    obtain ⟨tree, atom⟩ := isAtom_tower (whole euler) (known (operands.getLast nonempty) (by simp))
    have group := isAtom_enclosed atom.isPower.parse
    simp only [raised, if_pos euler]
    exact ⟨.exp tree, (atom.exp rfl).isPower.parse, (group.exp rfl).isPower.parse⟩
  · obtain ⟨left, atom⟩ := base.isAtom
    obtain ⟨right, power⟩ := isPower_tower known nonempty
    have group := isAtom_enclosed power.parse
    simp only [raised, if_neg euler]
    exact ⟨.pow left right, (atom.pow power rfl).parse, (atom.pow group.isPower rfl).parse⟩

/-- The base of a tower that begins with `e` is all that is the argument of exponentials. -/
theorem sameTree_base {eulers behind : List (List Token)}
    (known : ∀ other ∈ eulers ++ operand :: behind, IsOperand other)
    (euler : ∀ other ∈ eulers, other = [.euler]) (other : operand ≠ [.euler])
    (nonempty : behind ≠ []) :
    SameTree (towerTokens (eulers ++ operand :: behind))
      (towerTokens (enclosed (towerTokens (eulers ++ [operand])) :: behind)) := by
  obtain ⟨left, atom⟩ := isAtom_tower euler (known operand (by simp))
  obtain ⟨right, power⟩ :=
    isPower_tower (fun next member => known next (by simp [member])) nonempty
  have group := isAtom_enclosed atom.isPower.parse
  have alone : enclosed (towerTokens (eulers ++ [operand])) ≠ [.euler] := by simp [enclosed]
  rw [towerTokens_append euler other nonempty, towerTokens_cons nonempty, raised, if_neg alone]
  exact ⟨.pow left right, (atom.pow power rfl).parse, (group.pow power rfl).parse⟩

end Towers

section Texts

/-- Texts with carets between them. -/
def tower : List String → String
  | [] => ""
  | [text] => text
  | text :: next :: rest => text ++ "^" ++ tower (next :: rest)

def grouped (text : String) : String := "(" ++ text ++ ")"

variable {text : String} {texts : List String}

theorem no_sigma_of_operand (operand : IsOperand (Token.ofText text)) : 'Σ' ∉ text.toList :=
  Token.no_sigma_of_known operand.known

theorem no_sigma_tower (operands : ∀ text ∈ texts, IsOperand (Token.ofText text)) :
    'Σ' ∉ (tower texts).toList := by
  fun_induction tower texts with
  | case1 => simp
  | case2 text => exact no_sigma_of_operand (operands text (by simp))
  | case3 text next rest ih =>
      have first := no_sigma_of_operand (operands text (by simp))
      have others := ih fun other member => operands other (List.mem_cons_of_mem text member)
      simp [first, others]

theorem tokens_tower (operands : ∀ text ∈ texts, IsOperand (Token.ofText text)) :
    Token.ofText (tower texts) = towerTokens (texts.map Token.ofText) := by
  fun_induction tower texts with
  | case1 => rfl
  | case2 text => rfl
  | case3 text next rest ih =>
      have operand := operands text (by simp)
      have others : ∀ other ∈ next :: rest, IsOperand (Token.ofText other) :=
        fun other member => operands other (List.mem_cons_of_mem text member)
      have none := no_sigma_of_operand operand
      rw [List.map_cons, towerTokens_cons (by simp), ← ih others, raised]
      split
      · rename_i euler
        exact Token.ofText_exponential none (no_sigma_tower others) euler
      · rename_i other
        exact Token.ofText_caret none (no_sigma_tower others) (operand.getLast? other)

theorem tokens_grouped (operands : ∀ text ∈ texts, IsOperand (Token.ofText text)) :
    Token.ofText (grouped (tower texts)) = enclosed (towerTokens (texts.map Token.ofText)) := by
  rw [grouped, Token.ofText_parentheses (no_sigma_tower operands), tokens_tower operands]
  rfl

theorem isOperand_grouped (operands : ∀ text ∈ texts, IsOperand (Token.ofText text))
    (nonempty : texts ≠ []) : IsOperand (Token.ofText (grouped (tower texts))) := by
  obtain ⟨tree, power⟩ :=
    isPower_tower (List.forall_mem_map.mpr operands) (by simpa using nonempty)
  rw [tokens_grouped operands]
  exact .group power.parse

/-- The text is the constant `e`. -/
def IsEuler (text : String) : Prop := Token.ofText text = [.euler]

theorem ofText_eq_of_sameTree {text text' : String}
    (same : SameTree (Token.ofText text) (Token.ofText text')) :
    Complex.ofText text = Complex.ofText text' := by
  obtain ⟨tree, first, second⟩ := same
  rw [Complex.ofText, Complex.ofText, Complex.ofTokens, Complex.ofTokens, Expr.parse_of_tree first,
    Expr.parse_of_tree second]

/-- `a^b^c` is `a^(b^c)`, except that a caret behind the constant `e` does not take all the rest:
`e^a^b` is `(e^a)^b`, and `e^e^a^b^c` is `(e^e^a)^b^c`. -/
theorem ofText_tower (base : String) (exponents : List String) (nonempty : exponents ≠ [])
    (operands : ∀ text ∈ base :: exponents, IsOperand (Token.ofText text)) :
    ((IsEuler base → ∀ text ∈ exponents.dropLast, IsEuler text) →
      Complex.ofText (tower (base :: exponents)) =
        Complex.ofText (tower [base, grouped (tower exponents)])) ∧
    ∀ eulers other behind, base :: exponents = eulers ++ other :: behind →
      (∀ text ∈ eulers, IsEuler text) → ¬ IsEuler other → behind ≠ [] →
      Complex.ofText (tower (base :: exponents)) =
        Complex.ofText (tower (grouped (tower (eulers ++ [other])) :: behind)) := by
  constructor
  · intro whole
    have ⟨operand, others⟩ := List.forall_mem_cons.mp operands
    have pair : ∀ text ∈ [base, grouped (tower exponents)], IsOperand (Token.ofText text) := by
      simpa using ⟨operand, isOperand_grouped others nonempty⟩
    apply ofText_eq_of_sameTree
    rw [tokens_tower operands, tokens_tower pair, List.map_cons, List.map_cons, List.map_singleton,
      tokens_grouped others]
    refine sameTree_exponent operand (List.forall_mem_map.mpr others) (by simpa using nonempty) ?_
    intro euler
    rw [← List.map_dropLast]
    exact List.forall_mem_map.mpr (whole euler)
  · intro eulers other behind split euler notEuler goesOn
    rw [split] at operands ⊢
    obtain ⟨before, others⟩ := List.forall_mem_append.mp operands
    obtain ⟨operand, rest⟩ := List.forall_mem_cons.mp others
    have front : ∀ text ∈ eulers ++ [other], IsOperand (Token.ofText text) :=
      List.forall_mem_append.mpr ⟨before, by simpa using operand⟩
    have group : ∀ text ∈ grouped (tower (eulers ++ [other])) :: behind,
        IsOperand (Token.ofText text) :=
      List.forall_mem_cons.mpr ⟨isOperand_grouped front (by simp), rest⟩
    apply ofText_eq_of_sameTree
    rw [tokens_tower operands, tokens_tower group, List.map_cons, tokens_grouped front,
      List.map_append, List.map_append, List.map_cons]
    have known := List.forall_mem_map.mpr operands
    rw [List.map_append, List.map_cons] at known
    exact sameTree_base known (List.forall_mem_map.mpr euler) notEuler (by simpa using goesOn)

/-- `2^3,5^j` takes the whole exponent, `e^e^(1+j)^2^π` the two exponentials of the group as the
base of the other powers. -/
theorem ofText_tower_numerals :
    Complex.ofText "2^3,5^j" = Complex.ofText "2^(3,5^j)" ∧
      Complex.ofText "e^e^(1+j)^2^π" = Complex.ofText "(e^e^(1+j))^2^π" := by
  have numeral (text : String) (literal : Decimal.Literal)
      (cut : Token.ofText text = literal.tokens) : IsOperand (Token.ofText text) :=
    cut ▸ .literal literal
  have two := numeral "2" (Decimal.placedLiteral 2 0) (by decide +kernel)
  have decimal := numeral "3,5" (Decimal.placedLiteral 35 1) (by decide +kernel)
  have pi := numeral "π" (Decimal.placedLiteral 3141592653589793 15) (by decide +kernel)
  have unit : IsOperand (Token.ofText "j") := .imaginaryUnit
  have constant : IsOperand (Token.ofText "e") := .euler
  have group : IsOperand (Token.ofText "(1+j)") := by
    have cut : Token.ofText "(1+j)" = enclosed [.number "1", .plus, .imaginaryUnit] := by
      decide +kernel
    have parses : Expr.parse [.number "1", .plus, .imaginaryUnit] =
        .ok (.add (.number (.finite false 1 0)) .imaginaryUnit) := by
      decide +kernel
    exact cut ▸ .group parses
  have notEuler : ¬ IsEuler "2" ∧ ¬ IsEuler "(1+j)" := by
    unfold IsEuler
    decide +kernel
  have first := (ofText_tower "2" ["3,5", "j"] (by simp) (by simp [two, decimal, unit])).1
    fun two => absurd two notEuler.1
  have second := (ofText_tower "e" ["e", "(1+j)", "2", "π"] (by simp)
    (by simp [two, pi, constant, group])).2 ["e", "e"] "(1+j)" ["2", "π"] rfl
    (by simp [IsEuler]; decide +kernel) notEuler.2 (by simp)
  exact ⟨first, second⟩

/-- Functions with the values that the functions of the platform have at 0, 1, 2 and `e`. -/
def smallWholes : Elementary where
  exp x :=
    if x == 0 then 1
    else if x == 1 then Complex.euler.re
    else Float.ofBits 0x401d8e64b8d4ddae
  log x := if x == 1 then 0 else 1
  cos _ := 1
  sin _ := 0
  atan2 _ _ := 0

/-- The exponential of `e^1` is squared, not its argument. -/
theorem tower_not_right_associative :
    smallWholes.Regular ∧ smallWholes.ofText "e^(1^2)" = .ok Complex.euler ∧
      smallWholes.ofText "e^1^2" = .ok ⟨Float.ofBits 0x401d8e64b8d4ddae, 0⟩ := by
  refine ⟨⟨by decide +kernel, ?_, ?_, ?_⟩, by decide +kernel, by decide +kernel⟩
  · exact fun _ _ => Nat.le_refl _
  · have zero : Binary64.word (0 : Float) ≤ Binary64.word 1 := by decide
    exact fun _ _ => zero
  · have zero : Binary64.word (0 : Float) ≤ Binary64.word Complex.pi := by decide
    exact fun _ _ _ _ => zero

end Texts

end ComplexCalculator.Grammar
