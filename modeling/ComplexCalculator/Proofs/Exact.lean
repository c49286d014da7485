import Mathlib
import ComplexCalculator.Grammar.Expr

/-!
Exact arithmetic.

The grammar read over the complex numbers of analysis, without rounding. An operation that has
no result, such as a division by zero, gives no number, and neither does anything computed from
it; so reading itself never fails for the numbers.
-/

namespace ComplexCalculator

open Decimal (Numeral)

/-- A complex number, unless an operation had no result. -/
abbrev Exact := Option ℂ

namespace Exact

variable (x y z : Exact)

/-- The decimal that is written. -/
noncomputable def ofNumeral : Numeral → Exact
  | .finite negative digits exponent =>
      some ((if negative then -1 else 1) * digits * (10 : ℂ) ^ exponent)
  | .infinity _ | .undefined => none

noncomputable def neg : Exact := x.map fun a => -a

noncomputable def add : Exact := Option.map₂ (· + ·) x y

noncomputable def sub : Exact := Option.map₂ (· - ·) x y

noncomputable def mul : Exact := Option.map₂ (· * ·) x y

open Classical in
/-- The argument, if it is not zero. -/
noncomputable def nonzero : Exact := x.filter fun a => a ≠ 0

noncomputable def div : Exact := Option.map₂ (· / ·) x y.nonzero

noncomputable def exp : Exact := x.map fun a => a.exp

/-- The principal branch. -/
noncomputable def ln : Exact := x.nonzero.map fun a => a.log

/-- Zero has no powers. -/
noncomputable def pow : Exact := (y.mul x.ln).exp

noncomputable def semantics : Grammar.Semantics Exact Empty where
  number numeral := .ok (ofNumeral numeral)
  euler := exp (some 1)
  imaginaryUnit := some ⟨0, 1⟩
  zero := some 0
  one := some 1
  add x y := .ok (x.add y)
  sub x y := .ok (x.sub y)
  mul x y := .ok (x.mul y)
  div x y := .ok (x.div y)
  pow x y := .ok (x.pow y)
  exp x := .ok x.exp
  ln x := .ok x.ln
  neg := neg

theorem neg_twice : x.neg.neg = x := by
  cases x <;> simp [neg]

theorem sub_negated : x.sub y.neg = x.add y := by
  cases x <;> cases y <;> simp [neg, sub, add]

theorem sum_add : (x.add y).add z = x.add (y.add z) := by
  cases x <;> cases y <;> cases z <;> simp [add, add_assoc]

theorem sum_sub : (x.add y).sub z = x.add (y.sub z) := by
  cases x <;> cases y <;> cases z <;> simp [add, sub, add_sub_assoc]

theorem add_zero_sub : x.add (Exact.sub (some 0) y) = x.sub y := by
  cases x <;> cases y <;> simp [add, sub, sub_eq_add_neg]

theorem zero_add_self : Exact.add (some 0) x = x := by
  cases x <;> simp [add]

theorem negated_mul : x.neg.mul y = (x.mul y).neg := by
  cases x <;> cases y <;> simp [neg, mul]

theorem negated_div : x.neg.div y = (x.div y).neg := by
  unfold div
  cases x <;> cases y.nonzero <;> simp [neg, neg_div]

/-- Powers with natural exponents are those of the ring, unless the base is zero. -/
theorem pow_natCast {a : ℂ} (nonzero : a ≠ 0) (n : ℕ) :
    Exact.pow (some a) (some n) = some (a ^ n) := by
  have kept : Exact.nonzero (some a) = some a := by simp [Exact.nonzero, nonzero]
  simp [pow, ln, exp, mul, kept, Complex.exp_nat_mul, Complex.exp_log nonzero]

end Exact

namespace Grammar.Expr

open Exact (semantics)

/-- A natural number, written without an exponent. -/
def natural (n : ℕ) : Expr := .number (.finite false n 0)

theorem eval_natural (n : ℕ) : (natural n).eval semantics = .ok (some (n : ℂ)) := by
  simp [natural, eval, semantics, Exact.ofNumeral]

variable {left right : Expr} {x y : Exact}

theorem eval_neg (value : right.eval semantics = .ok y) :
    (neg right).eval semantics = .ok y.neg := by
  rw [eval, value]
  rfl

section

variable (first : left.eval semantics = .ok x) (second : right.eval semantics = .ok y)

include first second

theorem eval_add : (add left right).eval semantics = .ok (x.add y) := by
  rw [eval, first, second]
  rfl

theorem eval_sub : (sub left right).eval semantics = .ok (x.sub y) := by
  rw [eval, first, second]
  rfl

theorem eval_mul : (mul left right).eval semantics = .ok (x.mul y) := by
  rw [eval, first, second]
  rfl

theorem eval_pow : (pow left right).eval semantics = .ok (x.pow y) := by
  rw [eval, first, second]
  rfl

end

end Grammar.Expr

end ComplexCalculator
