import Mathlib
import ComplexCalculator.Cartesian
import ComplexCalculator.Operand

namespace ComplexCalculator

namespace Cartesian

/-- The complex number with these parts. -/
noncomputable def toComplex (a : Cartesian ℚ) : ℂ := ⟨a.re, a.im⟩

section Laws

variable (a b c : Cartesian ℚ)

theorem toComplex_injective : Function.Injective toComplex := by
  intro a b same
  obtain ⟨re, im⟩ := Complex.ext_iff.mp same
  cases a
  cases b
  simp only [toComplex, Rat.cast_inj] at re im
  rw [re, im]

theorem toComplex_add : (a.add b).toComplex = a.toComplex + b.toComplex := by
  apply Complex.ext <;> simp [toComplex, add]

theorem toComplex_sub : (a.sub b).toComplex = a.toComplex - b.toComplex := by
  apply Complex.ext <;> simp [toComplex, sub]

theorem toComplex_mul : (a.mul b).toComplex = a.toComplex * b.toComplex := by
  apply Complex.ext <;> simp [toComplex, mul]

theorem normSq_toComplex : Complex.normSq b.toComplex = (b.normSq : ℝ) := by
  simp [toComplex, normSq, Complex.normSq_apply]

theorem toComplex_div : (a.div b).toComplex = a.toComplex / b.toComplex := by
  apply Complex.ext
  · rw [Complex.div_re, normSq_toComplex]
    simp [toComplex, div, add_div]
  · rw [Complex.div_im, normSq_toComplex]
    simp [toComplex, div, sub_div]

theorem toComplex_zero : toComplex ⟨0, 0⟩ = 0 := by
  apply Complex.ext <;> simp [toComplex]

theorem toComplex_one : toComplex ⟨1, 0⟩ = 1 := by
  apply Complex.ext <;> simp [toComplex]

theorem normSq_eq_zero_iff : b.normSq = 0 ↔ b = ⟨0, 0⟩ := by
  rw [← toComplex_injective.eq_iff, toComplex_zero, ← Complex.normSq_eq_zero, normSq_toComplex,
    Rat.cast_eq_zero]

theorem toComplex_ne_zero {b : Cartesian ℚ} (nonzero : b ≠ ⟨0, 0⟩) : b.toComplex ≠ 0 := by
  rw [← toComplex_zero]
  exact toComplex_injective.ne nonzero

instance : Std.Commutative (add : Cartesian ℚ → Cartesian ℚ → Cartesian ℚ) where
  comm a b := toComplex_injective (by rw [toComplex_add, toComplex_add, add_comm])

instance : Std.Associative (add : Cartesian ℚ → Cartesian ℚ → Cartesian ℚ) where
  assoc a b c := toComplex_injective (by simp only [toComplex_add, add_assoc])

instance : Std.Commutative (mul : Cartesian ℚ → Cartesian ℚ → Cartesian ℚ) where
  comm a b := toComplex_injective (by rw [toComplex_mul, toComplex_mul, mul_comm])

instance : Std.Associative (mul : Cartesian ℚ → Cartesian ℚ → Cartesian ℚ) where
  assoc a b c := toComplex_injective (by simp only [toComplex_mul, mul_assoc])

theorem zero_add_self : add ⟨0, 0⟩ a = a :=
  toComplex_injective (by rw [toComplex_add, toComplex_zero, zero_add])

theorem one_mul_self : mul ⟨1, 0⟩ a = a :=
  toComplex_injective (by rw [toComplex_mul, toComplex_one, one_mul])

theorem mul_add_distrib : a.mul (b.add c) = (a.mul b).add (a.mul c) :=
  toComplex_injective (by simp only [toComplex_mul, toComplex_add, mul_add])

theorem add_sub_self : (a.add b).sub b = a :=
  toComplex_injective (by rw [toComplex_sub, toComplex_add, add_sub_cancel_right])

theorem sub_add_self : (a.sub b).add b = a :=
  toComplex_injective (by rw [toComplex_add, toComplex_sub, sub_add_cancel])

section Divisor

variable {b} (nonzero : b ≠ ⟨0, 0⟩)

include nonzero

theorem mul_div_self : (a.mul b).div b = a :=
  toComplex_injective (by
    rw [toComplex_div, toComplex_mul, mul_div_cancel_right₀ _ (toComplex_ne_zero nonzero)])

theorem div_mul_self : (a.div b).mul b = a :=
  toComplex_injective (by
    rw [toComplex_mul, toComplex_div, div_mul_cancel₀ _ (toComplex_ne_zero nonzero)])

end Divisor

end Laws

end Cartesian

section Permutations

variable {ι V ε : Type} {resolve : ι → Except ε V} {neutral : V} {f : V → V → V}

theorem foldlM_ok_iff (operands : List ι) (start value : V) :
    operands.foldlM (fun left operand => do .ok (f left (← resolve operand))) start =
        .ok value ↔
      ∃ values, List.Forall₂ (fun operand value => resolve operand = .ok value) operands values ∧
        values.foldl f start = value := by
  induction operands generalizing start with
  | nil => simp [pure, Except.pure]
  | cons operand rest ih =>
      rw [List.foldlM_cons]
      cases resolved : resolve operand with
      | error failure => simp [resolved, bind, Except.bind, List.forall₂_cons_left_iff]
      | ok right =>
          have onward := ih (f start right)
          simp only [bind, Except.bind] at onward ⊢
          simp [onward, resolved, List.forall₂_cons_left_iff]

section Identity

variable (identity : ∀ value, f neutral value = value)

include identity

/-- The first operand is combined with the neutral value like the others with what is before
them. -/
theorem foldOperands_eq_foldlM (operands : List ι) :
    foldOperands resolve neutral (fun left right => .ok (f left right)) operands =
      operands.foldlM (fun left operand => do .ok (f left (← resolve operand))) neutral := by
  cases operands with
  | nil => rfl
  | cons first rest =>
      rw [foldOperands, List.foldlM_cons]
      cases resolve first with
      | error failure => rfl
      | ok value =>
          have first : (do Except.ok (f neutral (← Except.ok value)) : Except ε V) = .ok value :=
            congrArg Except.ok (identity value)
          rw [first]

/-- Whether operands have a value, and which one, does not depend on their order, when they are
combined in a way that is commutative and associative and never fails. -/
theorem foldOperands_perm [Std.Commutative f] [Std.Associative f] {operands others : List ι}
    (perm : operands.Perm others) (value : V) :
    foldOperands resolve neutral (fun left right => .ok (f left right)) operands = .ok value ↔
      foldOperands resolve neutral (fun left right => .ok (f left right)) others =
        .ok value := by
  simp only [foldOperands_eq_foldlM identity, foldlM_ok_iff]
  have onward {operands others : List ι} (perm : operands.Perm others)
      (found : ∃ values, List.Forall₂ (fun operand value => resolve operand = .ok value)
        operands values ∧ values.foldl f neutral = value) :
      ∃ values, List.Forall₂ (fun operand value => resolve operand = .ok value)
        others values ∧ values.foldl f neutral = value := by
    obtain ⟨values, resolved, folded⟩ := found
    obtain ⟨reordered, resolved, same⟩ := List.perm_comp_forall₂ perm.symm resolved
    exact ⟨reordered, resolved, (same.foldl_eq neutral).trans folded⟩
  exact ⟨onward perm, onward perm.symm⟩

end Identity

end Permutations

namespace Cartesian

variable {ι ε : Type}

/-- The sum of operands, where no sum is rounded or refused. -/
def total (resolve : ι → Except ε (Cartesian ℚ)) (operands : List ι) : Except ε (Cartesian ℚ) :=
  foldOperands resolve ⟨0, 0⟩ (fun a b => .ok (a.add b)) operands

/-- The product of operands, where no product is rounded or refused. -/
def totalProduct (resolve : ι → Except ε (Cartesian ℚ)) (operands : List ι) :
    Except ε (Cartesian ℚ) :=
  foldOperands resolve ⟨1, 0⟩ (fun a b => .ok (a.mul b)) operands

/-- Without rounding the formulas of the parts obey the laws of a field, and so a sum or a
product of operands does not depend on their order. -/
theorem exact_laws :
    (∀ a b c : Cartesian ℚ,
      a.add b = b.add a ∧ (a.add b).add c = a.add (b.add c) ∧
      a.mul b = b.mul a ∧ (a.mul b).mul c = a.mul (b.mul c) ∧
      a.mul (b.add c) = (a.mul b).add (a.mul c) ∧
      (a.add b).sub b = a ∧ (a.sub b).add b = a) ∧
    (∀ b : Cartesian ℚ, b.normSq = 0 ↔ b = ⟨0, 0⟩) ∧
    (∀ a b : Cartesian ℚ, b ≠ ⟨0, 0⟩ → (a.mul b).div b = a ∧ (a.div b).mul b = a) ∧
    ∀ (ι ε : Type) (resolve : ι → Except ε (Cartesian ℚ)) (operands others : List ι),
      operands.Perm others → ∀ value,
        (total resolve operands = .ok value ↔ total resolve others = .ok value) ∧
        (totalProduct resolve operands = .ok value ↔ totalProduct resolve others = .ok value) := by
  refine ⟨fun a b c => ?_, normSq_eq_zero_iff, ?_, ?_⟩
  · exact ⟨Std.Commutative.comm a b, Std.Associative.assoc a b c, Std.Commutative.comm a b,
      Std.Associative.assoc a b c, mul_add_distrib a b c, add_sub_self a b, sub_add_self a b⟩
  · intro a b nonzero
    exact ⟨mul_div_self a nonzero, div_mul_self a nonzero⟩
  · intro ι ε resolve operands others perm value
    exact ⟨foldOperands_perm zero_add_self perm value, foldOperands_perm one_mul_self perm value⟩

/-- Dividing by `3+4j`, and the product of three numbers from the other end. -/
theorem exact_laws_product :
    let a : Cartesian ℚ := ⟨1 / 2, -2⟩
    let b : Cartesian ℚ := ⟨3, 4⟩
    let c : Cartesian ℚ := ⟨0, 1 / 7⟩
    let resolve : Cartesian ℚ → Except Empty (Cartesian ℚ) := .ok
    (b ≠ ⟨0, 0⟩ ∧ (a.mul b).div b = a ∧ (a.div b).mul b = a) ∧
      List.Perm [a, b, c] [c, b, a] ∧
      totalProduct resolve [a, b, c] = .ok ⟨4 / 7, 19 / 14⟩ ∧
      totalProduct resolve [c, b, a] = .ok ⟨4 / 7, 19 / 14⟩ := by
  intro a b c resolve
  obtain ⟨-, -, divides, reorders⟩ := exact_laws
  have nonzero : b ≠ ⟨0, 0⟩ := by decide
  have perm : List.Perm [a, b, c] [c, b, a] := List.reverse_perm [c, b, a]
  have product : totalProduct resolve [a, b, c] = .ok ⟨4 / 7, 19 / 14⟩ := by decide +kernel
  have reversed := (reorders _ _ resolve _ _ perm _).2.mp product
  exact ⟨⟨nonzero, divides a b nonzero⟩, perm, product, reversed⟩

end Cartesian

end ComplexCalculator
