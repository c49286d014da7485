import ComplexCalculator.Grammar.Basic

/-!
Reading expressions.

`read` ties the rules of the grammar together: each rule reads with the others. A rule that
calls another one has taken a token before, or calls a rule of lower rank, so the depth of
calls is bounded by the number of tokens. `parse` reads a whole list of tokens as the inside
of a group, whose closing parenthesis it adds.
-/

namespace ComplexCalculator.Grammar

variable {V ε : Type}

/-- Reads with at most `depth` nested calls. Deeper calls do not happen when `depth` is
at least `callDepth` of the tokens. -/
def readWithin (semantics : Semantics V ε) : Nat → Rule V → List Token → Reading V ε
  | 0 => fun _ _ => .error (.malformed .unclosed)
  | depth + 1 => step semantics (readWithin semantics depth)

/-- The rank of a rule: a rule calls rules of lower rank on the same tokens, and any rule
on fewer tokens. -/
def Rule.rank : Rule V → Nat
  | .atom => 0
  | .powerTail _ => 0
  | .sumTail _ => 0
  | .glued _ => 1
  | .productTail _ => 1
  | .power => 2
  | .product => 3
  | .sum => 4
  | .group => 5

/-- A bound on the nested calls of a rule on these tokens. -/
def callDepth (rule : Rule V) (tokens : List Token) : Nat :=
  6 * tokens.length + rule.rank + 1

def read (semantics : Semantics V ε) (rule : Rule V) (tokens : List Token) : Reading V ε :=
  readWithin semantics (callDepth rule tokens) rule tokens

def parse (semantics : Semantics V ε) (tokens : List Token) : Except (Failure ε) V :=
  match read semantics .group (tokens ++ [.closing]) with
  | .ok (value, []) => .ok value
  | .ok (_, rest) => .error (.malformed (.strayClosing rest))
  | .error failure => .error failure

end ComplexCalculator.Grammar
