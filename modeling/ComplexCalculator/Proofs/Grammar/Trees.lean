import ComplexCalculator.Evaluation
import ComplexCalculator.Grammar.Expr
import ComplexCalculator.Operand
import ComplexCalculator.Proofs.Grammar.Simulation

namespace ComplexCalculator.Grammar

variable {V ε : Type}

namespace Expr

def binary : Binary → Expr → Expr → Expr
  | .add => add
  | .sub => sub
  | .mul => mul
  | .div => div
  | .pow => pow

def unary : Unary → Expr → Expr
  | .exp => exp
  | .ln => ln

def operands : Expr → List Expr
  | add left right | sub left right | mul left right | div left right => [left, right]
  | pow base exponent => [base, exponent]
  | exp argument | ln argument | neg argument => [argument]
  | number _ | euler | imaginaryUnit | zero | one => []

/-- The operation at the root has no result for the values of its operands. -/
structure FailsWith (semantics : Semantics V ε) (node : Expr) (failure : ε) : Prop where
  operands : ∀ operand ∈ node.operands, ∃ value, operand.eval semantics = .ok value
  fails : node.eval semantics = .error failure

def keep (allowed : Expr → Bool) (node : Expr) : Except Expr Expr :=
  if allowed node then .ok node else .error node

/-- Builds trees, up to the first number or operation that is not allowed. -/
def limited (allowed : Expr → Bool) : Semantics Expr Expr where
  number numeral := keep allowed (number numeral)
  euler := euler
  imaginaryUnit := imaginaryUnit
  zero := zero
  one := one
  add left right := keep allowed (add left right)
  sub left right := keep allowed (sub left right)
  mul left right := keep allowed (mul left right)
  div left right := keep allowed (div left right)
  pow base exponent := keep allowed (pow base exponent)
  exp argument := keep allowed (exp argument)
  ln argument := keep allowed (ln argument)
  neg := neg

/-- The reader of trees completes this node before it ends: a reader that may not build the
node stops there. -/
def Completes (tokens : List Token) (node : Expr) : Prop :=
  Grammar.parse (limited fun other => other != node) tokens = .error (.arithmetic node)

section Equations

variable (semantics : Semantics V ε)

theorem eval_binary (operation : Binary) (left right : Expr) :
    (binary operation left right).eval semantics =
      (do semantics.binary operation (← left.eval semantics) (← right.eval semantics)) := by
  cases operation <;> rfl

theorem eval_unary (operation : Unary) (argument : Expr) :
    (unary operation argument).eval semantics =
      (do semantics.unary operation (← argument.eval semantics)) := by
  cases operation <;> rfl

theorem operands_binary (operation : Binary) (left right : Expr) :
    (binary operation left right).operands = [left, right] := by
  cases operation <;> rfl

theorem operands_unary (operation : Unary) (argument : Expr) :
    (unary operation argument).operands = [argument] := by
  cases operation <;> rfl

theorem builder_binary (operation : Binary) (left right : Expr) :
    builder.binary operation left right = .ok (binary operation left right) := by
  cases operation <;> rfl

theorem builder_unary (operation : Unary) (argument : Expr) :
    builder.unary operation argument = .ok (unary operation argument) := by
  cases operation <;> rfl

theorem limited_binary (allowed : Expr → Bool) (operation : Binary) (left right : Expr) :
    (limited allowed).binary operation left right =
      keep allowed (binary operation left right) := by
  cases operation <;> rfl

theorem limited_unary (allowed : Expr → Bool) (operation : Unary) (argument : Expr) :
    (limited allowed).unary operation argument = keep allowed (unary operation argument) := by
  cases operation <;> rfl

end Equations

section Evaluation

variable (semantics : Semantics V ε)

/-- A tree follows its value, and goes on to be built when it has none. -/
def evaluation : Tracking V ε Expr Empty where
  agree value tree := tree.eval semantics = .ok value
  spoiled failure tree := tree.eval semantics = .error failure
  lost _ _ := True

/-- Whatever is computed, a tree for it can be built. -/
theorem evaluation_tracks {result : Except ε V} {tree : Expr}
    (same : tree.eval semantics = result) (rest : List Token) :
    (evaluation semantics).Tracks (compute result rest) (compute (.ok tree) rest) := by
  cases result with
  | ok value => exact ⟨tree, rfl, same⟩
  | error failure => exact same

theorem evaluation_simulates : (evaluation semantics).Simulates semantics builder where
  number numeral rest := by
    have same : (number numeral).eval semantics = semantics.number numeral := rfl
    exact evaluation_tracks semantics same rest
  euler := rfl
  imaginaryUnit := rfl
  zero := rfl
  one := rfl
  binary operation left right left' right' agree agree' rest := by
    rw [builder_binary]
    refine evaluation_tracks semantics ?_ rest
    change left'.eval semantics = _ at agree
    change right'.eval semantics = _ at agree'
    rw [eval_binary, agree, agree']
    rfl
  unary operation argument argument' agree rest := by
    rw [builder_unary]
    refine evaluation_tracks semantics ?_ rest
    change argument'.eval semantics = _ at agree
    rw [eval_unary, agree]
    rfl
  neg {argument argument'} agree := by
    change argument'.eval semantics = _ at agree
    change (do return semantics.neg (← argument'.eval semantics)) = _
    rw [agree]
    rfl
  spoiledLeft operation failure left spoiled right rest := by
    change left.eval semantics = _ at spoiled
    rw [builder_binary]
    change (binary operation left right).eval semantics = _
    rw [eval_binary, spoiled]
    rfl
  spoiledRight operation failure value left right agree spoiled rest := by
    change left.eval semantics = _ at agree
    change right.eval semantics = _ at spoiled
    rw [builder_binary]
    change (binary operation left right).eval semantics = _
    rw [eval_binary, agree, spoiled]
    rfl
  spoiledUnary operation failure argument spoiled rest := by
    change argument.eval semantics = _ at spoiled
    rw [builder_unary]
    change (unary operation argument).eval semantics = _
    rw [eval_unary, spoiled]
    rfl
  spoiledNeg {failure argument} spoiled := by
    change argument.eval semantics = _ at spoiled
    change (do return semantics.neg (← argument.eval semantics)) = _
    rw [spoiled]
    rfl
  lost _ _ := trivial

end Evaluation

section Failing

variable (semantics : Semantics V ε)

/-- Trees are built as long as they have values; where one has none, its root is to blame. -/
def failing : Tracking V ε Expr Expr where
  agree value tree := tree.eval semantics = .ok value
  spoiled _ _ := False
  lost failure error := ∃ node, error = .arithmetic node ∧ node.FailsWith semantics failure

def hasValue (tree : Expr) : Bool := (tree.eval semantics).isOk

theorem failing_tracks {result : Except ε V} {tree : Expr}
    (same : tree.eval semantics = result)
    (operands : ∀ operand ∈ tree.operands, ∃ value, operand.eval semantics = .ok value)
    (rest : List Token) :
    (failing semantics).Tracks (compute result rest)
      (compute (keep (hasValue semantics) tree) rest) := by
  cases result with
  | ok value =>
      have allowed : hasValue semantics tree = true := by rw [hasValue, same]; rfl
      rw [keep, if_pos allowed]
      exact ⟨tree, rfl, same⟩
  | error failure =>
      have refused : ¬ hasValue semantics tree = true := by rw [hasValue, same]; exact nofun
      rw [keep, if_neg refused]
      exact ⟨tree, rfl, operands, same⟩

theorem failing_simulates :
    (failing semantics).Simulates semantics (limited (hasValue semantics)) where
  number numeral rest := by
    have same : (number numeral).eval semantics = semantics.number numeral := rfl
    exact failing_tracks semantics same nofun rest
  euler := rfl
  imaginaryUnit := rfl
  zero := rfl
  one := rfl
  binary operation left right left' right' agree agree' rest := by
    change left'.eval semantics = _ at agree
    change right'.eval semantics = _ at agree'
    rw [limited_binary]
    refine failing_tracks semantics ?_ ?_ rest
    · rw [eval_binary, agree, agree']
      rfl
    · rw [operands_binary]
      simp [agree, agree']
  unary operation argument argument' agree rest := by
    change argument'.eval semantics = _ at agree
    rw [limited_unary]
    refine failing_tracks semantics ?_ ?_ rest
    · rw [eval_unary, agree]
      rfl
    · rw [operands_unary]
      simp [agree]
  neg agree := (evaluation_simulates semantics).neg agree
  spoiledLeft _ _ _ := False.elim
  spoiledRight _ _ _ _ _ _ := False.elim
  spoiledUnary _ _ _ := False.elim
  spoiledNeg := False.elim
  lost := False.elim

end Failing

section Stopping

variable (node : Expr)

/-- A reader that stops at `node` alone goes on where another one stops before. -/
def stopping : Tracking Expr Expr Expr Expr where
  agree tree other := other = tree
  spoiled failure _ := failure ≠ node
  lost failure error := failure = node → error = .arithmetic node

theorem stopping_after {failure : Expr} (other : failure ≠ node) (reading : Reading Expr Expr) :
    (stopping node).After failure reading := by
  cases reading with
  | ok result => exact other
  | error error => exact fun same => absurd same other

theorem stopping_tracks {allowed : Expr → Bool} (refused : allowed node = false) (tree : Expr)
    (rest : List Token) :
    (stopping node).Tracks (compute (keep allowed tree) rest)
      (compute (keep (fun other => other != node) tree) rest) := by
  by_cases same : tree = node
  · subst same
    simp only [keep, refused, bne_self_eq_false, Bool.false_eq_true, if_false]
    exact fun _ => rfl
  · have goesOn : (tree != node) = true := by simpa using same
    simp only [keep, goesOn, if_true]
    split
    · exact ⟨tree, rfl, rfl⟩
    · exact same

theorem stopping_simulates {allowed : Expr → Bool} (refused : allowed node = false) :
    (stopping node).Simulates (limited allowed) (limited fun other => other != node) where
  number numeral rest := stopping_tracks node refused (number numeral) rest
  euler := rfl
  imaginaryUnit := rfl
  zero := rfl
  one := rfl
  binary operation left right left' right' agree agree' rest := by
    change left' = left at agree
    change right' = right at agree'
    subst agree agree'
    rw [limited_binary, limited_binary]
    exact stopping_tracks node refused _ rest
  unary operation argument argument' agree rest := by
    change argument' = argument at agree
    subst agree
    rw [limited_unary, limited_unary]
    exact stopping_tracks node refused _ rest
  neg agree := congrArg neg agree
  spoiledLeft _ _ _ other _ _ := stopping_after node other _
  spoiledRight _ _ _ _ _ _ other _ := stopping_after node other _
  spoiledUnary _ _ _ other _ := stopping_after node other _
  spoiledNeg other := other
  lost other _ same := absurd same other

end Stopping

variable {semantics : Semantics V ε} {tokens : List Token} {tree : Expr}

theorem parse_of_tree (read : parse tokens = .ok tree) :
    Grammar.parse semantics tokens = (tree.eval semantics).mapError .arithmetic := by
  have ends := (evaluation_simulates semantics).parse_ends tokens
  change (evaluation semantics).Ends _ (parse tokens) at ends
  rw [read] at ends
  cases parsed : Grammar.parse semantics tokens with
  | ok value =>
      rw [parsed] at ends
      obtain ⟨other, same, agree⟩ := ends
      cases same
      rw [show tree.eval semantics = .ok value from agree]
      rfl
  | error failure =>
      rw [parsed] at ends
      cases failure with
      | malformed error => cases ends
      | arithmetic failure =>
          rw [show tree.eval semantics = .error failure from ends]
          rfl

theorem exists_tree {value : V} (parsed : Grammar.parse semantics tokens = .ok value) :
    ∃ tree : Expr, parse tokens = .ok tree ∧ tree.eval semantics = .ok value := by
  have ends := (evaluation_simulates semantics).parse_ends tokens
  rw [parsed] at ends
  exact ends

theorem exists_completed {failure : ε}
    (failed : Grammar.parse semantics tokens = .error (.arithmetic failure)) :
    ∃ node, Completes tokens node ∧ node.FailsWith semantics failure := by
  have ends := (failing_simulates semantics).parse_ends tokens
  rw [failed] at ends
  cases limitedTo : Grammar.parse (limited (hasValue semantics)) tokens with
  | ok other =>
      rw [limitedTo] at ends
      exact ends.elim
  | error error =>
      rw [limitedTo] at ends
      obtain ⟨node, rfl, fails⟩ := ends
      refine ⟨node, ?_, fails⟩
      -- the reader that refuses this node alone builds all that was built before it
      have refused : hasValue semantics node = false := by rw [hasValue, fails.fails]; rfl
      have stops := (stopping_simulates node refused).parse_ends tokens
      rw [limitedTo] at stops
      unfold Completes
      cases stopped : Grammar.parse (limited fun other => other != node) tokens with
      | ok other =>
          rw [stopped] at stops
          exact absurd rfl stops
      | error error =>
          rw [stopped] at stops
          rw [stops rfl]

theorem parse_of_malformed {error : SyntaxError} (read : parse tokens = .error (.malformed error)) :
    Grammar.parse semantics tokens = .error (.malformed error) ∨
      ∃ failure, Grammar.parse semantics tokens = .error (.arithmetic failure) := by
  have ends := (evaluation_simulates semantics).parse_ends tokens
  change (evaluation semantics).Ends _ (parse tokens) at ends
  rw [read] at ends
  cases parsed : Grammar.parse semantics tokens with
  | ok value =>
      rw [parsed] at ends
      obtain ⟨other, same, _⟩ := ends
      contradiction
  | error failure =>
      rw [parsed] at ends
      cases failure with
      | malformed found =>
          cases ends
          exact .inl rfl
      | arithmetic failure => exact .inr ⟨failure, rfl⟩

end Expr

/-- The value of tokens is the value of their tree. Tokens without a tree have the same syntax
error, unless an operation fails that the reader of trees completes before. -/
theorem ofTokens_eq_eval (tokens : List Token) :
    (∀ tree, Expr.parse tokens = .ok tree →
      Complex.ofTokens tokens = evaluated (tree.eval Complex.semantics)) ∧
    (∀ error, Expr.parse tokens = .error (.malformed error) →
      Complex.ofTokens tokens = .error (.malformed error) ∨
        ∃ node failure, Expr.Completes tokens node ∧ node.FailsWith Complex.semantics failure ∧
          Complex.ofTokens tokens = .error (.arithmetic failure)) := by
  constructor
  · intro tree read
    exact Expr.parse_of_tree read
  · intro error read
    refine (Expr.parse_of_malformed read).imp id ?_
    intro failed
    obtain ⟨failure, failed⟩ := failed
    obtain ⟨node, completes, fails⟩ := Expr.exists_completed failed
    exact ⟨node, failure, completes, fails, failed⟩

/-- `-2^j/() ` is a difference whose second term is a quotient. Behind it an unknown token has no
tree, whatever the power and the quotient give. -/
theorem ofTokens_eq_eval_quotient :
    let tokens := [.minus, .number "2", .caret, .imaginaryUnit, .slash, .opening, .closing, .space]
    let two : Decimal.Numeral := .finite false 2 0
    let tree := Expr.sub .zero (.div (.pow (.number two) .imaginaryUnit) .one)
    let error := SyntaxError.unexpected "?" [.closing]
    (Expr.parse tokens = .ok tree ∧
      Complex.ofTokens tokens = evaluated (tree.eval Complex.semantics)) ∧
    (Expr.parse (tokens ++ [.unknown "?"]) = .error (.malformed error) ∧
      (Complex.ofTokens (tokens ++ [.unknown "?"]) = .error (.malformed error) ∨
        ∃ node failure, Expr.Completes (tokens ++ [.unknown "?"]) node ∧
          node.FailsWith Complex.semantics failure ∧
          Complex.ofTokens (tokens ++ [.unknown "?"]) = .error (.arithmetic failure))) := by
  intro tokens two tree error
  have built : Expr.parse tokens = .ok tree := rfl
  have refused : Expr.parse (tokens ++ [.unknown "?"]) = .error (.malformed error) := rfl
  obtain ⟨value, _⟩ := ofTokens_eq_eval tokens
  obtain ⟨_, failure⟩ := ofTokens_eq_eval (tokens ++ [.unknown "?"])
  exact ⟨⟨built, value tree built⟩, ⟨refused, failure error refused⟩⟩

end ComplexCalculator.Grammar
