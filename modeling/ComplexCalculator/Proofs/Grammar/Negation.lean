import Mathlib
import ComplexCalculator.Proofs.Exact
import ComplexCalculator.Proofs.Grammar.Levels
import ComplexCalculator.Proofs.Grammar.Trees

namespace ComplexCalculator.Grammar

variable {V ε : Type} {tokens rest : List Token}

section Values

/-- The reading with another value. -/
def Reading.mapValue (f : V → V) : Reading V ε → Reading V ε
  | .ok (value, rest) => .ok (f value, rest)
  | .error failure => .error failure

variable {reading : Reading V ε} {f : V → V} {next next' : V → List Token → Reading V ε}

theorem Reading.mapValue_andThen :
    (reading.mapValue f).andThen next = reading.andThen fun value => next (f value) := by
  cases reading <;> rfl

theorem Reading.andThen_assoc {after : V → List Token → Reading V ε} :
    (reading.andThen next).andThen after =
      reading.andThen fun value rest => (next value rest).andThen after := by
  cases reading <;> rfl

/-- A reading goes on in the same way with another value, up to the value in the end. -/
theorem Reading.andThen_mapValue
    (same : ∀ value rest, reading = .ok (value, rest) →
      next' value rest = (next value rest).mapValue f) :
    reading.andThen next' = (reading.andThen next).mapValue f := by
  cases reading with
  | error failure => rfl
  | ok result => exact same _ _ rfl

end Values

section Atoms

variable {semantics : Semantics V ε} {value : V}

theorem read_atom_space (tokens : List Token) :
    read semantics .atom (.space :: tokens) = read semantics .atom tokens := by
  rw [read_eq_step, read_eq_step]
  rfl

/-- Nothing but an atom is negated. -/
theorem read_atom_minus (tokens : List Token) :
    read semantics .atom (.minus :: tokens) =
      (read semantics .atom tokens).mapValue semantics.neg := by
  rw [read_eq_step, step]
  simp only [skipSpaces]
  cases found : read semantics .atom tokens with
  | error failure => rfl
  | ok result => exact read_glued_of_atEnd (atEnd_of_read_atom found)

end Atoms

/-- Factors at the front of the tokens, with nothing but spaces between them, are the base of a
power. -/
inductive LeadsToPower : List Token → Prop where
  | caret {tokens rest exponent : List Token} {factor : Expr}
      (atom : read Expr.builder .atom tokens = .ok (factor, rest))
      (front : skipSpaces rest = .caret :: exponent) : LeadsToPower tokens
  | factor {tokens rest : List Token} {factor : Expr}
      (atom : read Expr.builder .atom tokens = .ok (factor, rest))
      (goesOn : atEnd (skipSpaces rest) = false) (later : LeadsToPower (skipSpaces rest)) :
      LeadsToPower tokens

section Products

open Exact (semantics)

theorem exists_factor {factor : Exact} (found : read semantics .atom tokens = .ok (factor, rest)) :
    ∃ tree, read Expr.builder .atom tokens = .ok (tree, rest) := by
  have tracks := (Expr.evaluation_simulates semantics).read_tracks .atom tokens
  rw [found] at tracks
  obtain ⟨tree, built, -⟩ := tracks
  exact ⟨tree, built⟩

/-- What stands behind an atom: no power of it, and no row of factors with a power. -/
structure Powerless (rest : List Token) : Prop where
  caret : ∀ exponent, skipSpaces rest ≠ .caret :: exponent
  factors : atEnd (skipSpaces rest) = false → ¬ LeadsToPower (skipSpaces rest)

theorem powerless_of_atom {factor : Exact} (plain : ¬ LeadsToPower tokens)
    (found : read semantics .atom tokens = .ok (factor, rest)) : Powerless rest := by
  obtain ⟨tree, built⟩ := exists_factor found
  exact ⟨fun _ front => plain (.caret built front), fun goesOn later =>
    plain (.factor built goesOn later)⟩

theorem read_powerTail_powerless (base : Exact) (plain : Powerless rest) :
    read semantics (.powerTail base) rest = .ok (base, skipSpaces rest) := by
  rw [read_eq_step, step]
  split
  · rename_i front
    exact absurd front (plain.caret _)
  · rfl

theorem mul_neg_andThen (reading : Reading Exact Empty) (x : Exact) :
    (reading.andThen fun right => compute (semantics.mul x.neg right)) =
      (reading.andThen fun right => compute (semantics.mul x right)).mapValue Exact.neg :=
  Reading.andThen_mapValue fun right rest _ => by
    simp only [semantics, compute, Exact.negated_mul]
    rfl

theorem quotientTail_neg (tokens : List Token) (x : Exact) :
    quotientTail semantics (read semantics) x.neg tokens =
      (quotientTail semantics (read semantics) x tokens).mapValue Exact.neg := by
  unfold quotientTail
  split
  · exact mul_neg_andThen _ x
  · rfl

theorem read_productTail_neg (tokens : List Token) (x : Exact)
    (plain : atEnd (skipSpaces tokens) = false → ¬ LeadsToPower (skipSpaces tokens)) :
    read semantics (.productTail x.neg) tokens =
      (read semantics (.productTail x) tokens).mapValue Exact.neg := by
  induction size : tokens.length using Nat.strongRecOn generalizing tokens x with
  | ind size ih =>
      subst size
      rw [read_eq_step, read_eq_step]
      simp only [step]
      split
      · exact mul_neg_andThen _ x
      · refine Reading.andThen_mapValue fun divisor rest _ => ?_
        simp only [semantics, compute, Reading.andThen, Exact.negated_div]
        exact quotientTail_neg rest (x.div divisor)
      · split
        · rfl
        · rename_i goesOn
          refine Reading.andThen_mapValue fun factor rest found => ?_
          have ends := atEnd_of_read_atom found
          have powerless := powerless_of_atom (plain (by simpa using goesOn)) found
          have shorter : (skipSpaces rest).length < tokens.length := by
            have taken := read_leaves semantics .atom _ _ _ found
            have nonempty := List.length_pos_iff.mpr (ne_nil_of_not_atEnd (by simpa using goesOn))
            have skipped := length_skipSpaces_le tokens
            have left := length_skipSpaces_le rest
            simp only [Rule.leftover] at taken
            omega
          change (read semantics (.glued (x.neg.mul factor)) rest).andThen _ =
            ((read semantics (.glued (x.mul factor)) rest).andThen _).mapValue Exact.neg
          rw [read_glued_of_atEnd ends, read_glued_of_atEnd ends, Exact.negated_mul]
          change (read semantics (.powerTail (x.mul factor).neg) rest).andThen _ =
            ((read semantics (.powerTail (x.mul factor)) rest).andThen _).mapValue Exact.neg
          rw [read_powerTail_powerless _ powerless, read_powerTail_powerless _ powerless]
          refine ih _ shorter _ _ (fun goesOn => ?_) rfl
          rw [skipSpaces_skipSpaces] at goesOn ⊢
          exact powerless.factors goesOn

theorem read_product_of_atom {V ε : Type} {semantics : Semantics V ε} {tokens tokens' : List Token}
    (same : read semantics .atom tokens = read semantics .atom tokens') :
    read semantics .product tokens = read semantics .product tokens' := by
  have power : read semantics .power tokens = read semantics .power tokens' := by
    rw [read_eq_step, read_eq_step semantics .power tokens']
    simp only [step, same]
  rw [read_eq_step, read_eq_step semantics .product tokens']
  simp only [step, power]

/-- A minus sign before a product negates it, if no power of its first factors is taken. -/
theorem read_product_minus (plain : ¬ LeadsToPower tokens) :
    read semantics .product (.minus :: tokens) =
      (read semantics .product tokens).mapValue Exact.neg := by
  have product (tokens : List Token) : read semantics .product tokens =
      (read semantics .atom tokens).andThen fun base rest =>
      (read semantics (.powerTail base) rest).andThen fun left =>
      read semantics (.productTail left) := by
    rw [read_eq_step, step, ← Reading.andThen_assoc]
    congr 1
    rw [read_eq_step]
    rfl
  rw [product, product, read_atom_minus, Reading.mapValue_andThen]
  refine Reading.andThen_mapValue fun base rest found => ?_
  have powerless := powerless_of_atom plain found
  rw [read_powerTail_powerless _ powerless, read_powerTail_powerless _ powerless]
  refine read_productTail_neg _ base fun goesOn => ?_
  rw [skipSpaces_skipSpaces] at goesOn ⊢
  exact powerless.factors goesOn

/-- Two minus signs before a product cancel, whatever it is. -/
theorem read_product_twice_minus (tokens : List Token) :
    read semantics .product (.minus :: .minus :: tokens) = read semantics .product tokens := by
  refine read_product_of_atom ?_
  rw [read_atom_minus, read_atom_minus]
  cases read semantics .atom tokens with
  | error failure => rfl
  | ok result => exact congrArg (fun value => Except.ok (value, result.2)) (Exact.neg_twice _)

end Products

section Sums

open Exact (semantics)

/-- The rest of a sum can be added up by itself. -/
theorem read_sumTail_add (tokens : List Token) (x y : Exact) :
    read semantics (.sumTail (x.add y)) tokens =
      (read semantics (.sumTail y) tokens).mapValue x.add := by
  induction size : tokens.length using Nat.strongRecOn generalizing tokens y with
  | ind size ih =>
      subst size
      have skipped := length_skipSpaces_le tokens
      rw [read_eq_step, read_eq_step]
      simp only [step]
      split
      · refine Reading.andThen_mapValue fun right rest _ => ?_
        exact congrArg (fun value => Except.ok (value, rest)) (Exact.sum_add x y right)
      · rename_i behind front
        refine Reading.andThen_mapValue fun right rest found => ?_
        have left := read_leaves semantics .product _ _ _ found
        simp only [Rule.leftover] at left
        rw [front, List.length_cons] at skipped
        change read semantics (.sumTail ((x.add y).sub right)) rest =
          (read semantics (.sumTail (y.sub right)) rest).mapValue x.add
        rw [Exact.sum_sub]
        exact ih _ (by omega) rest _ rfl
      · rfl

end Sums

end ComplexCalculator.Grammar
