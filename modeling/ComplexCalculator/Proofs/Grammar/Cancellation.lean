import Mathlib
import ComplexCalculator.Proofs.Grammar.Folding

namespace ComplexCalculator.Grammar

open Exact (semantics)

variable {tokens rest : List Token}

section Sums

theorem read_sumTail_plus (x : Exact) (tokens : List Token) :
    read semantics (.sumTail x) (.plus :: tokens) =
      (read semantics .sum tokens).mapValue x.add := by
  rw [read_eq_step, step]
  simp only [skipSpaces]
  cases read semantics .sum tokens <;> rfl

theorem read_sumTail_minus (x : Exact) (tokens : List Token) :
    read semantics (.sumTail x) (.minus :: tokens) =
      (read semantics .product tokens).andThen fun right =>
        read semantics (.sumTail (x.sub right)) := by
  rw [read_eq_step]
  rfl

theorem read_sum_plus (tokens : List Token) :
    read semantics .sum (.plus :: tokens) = read semantics .sum tokens := by
  rw [read_eq_step]
  rfl

theorem read_sum_minus (tokens : List Token) :
    read semantics .sum (.minus :: tokens) =
      read semantics (.sumTail (some 0)) (.minus :: tokens) := by
  rw [read_eq_step]
  rfl

theorem read_sum_space (tokens : List Token) :
    read semantics .sum (.space :: tokens) = read semantics .sum tokens := by
  rw [read_sum_skipSpaces, read_sum_skipSpaces semantics tokens]
  rfl

theorem read_product_space (tokens : List Token) :
    read semantics .product (.space :: tokens) = read semantics .product tokens :=
  read_product_of_atom (read_atom_space tokens)

/-- A sum is a product and what follows it, unless a sign begins it. -/
theorem read_sum_product (notPlus : ∀ rest, skipSpaces tokens ≠ .plus :: rest)
    (notMinus : ∀ rest, skipSpaces tokens ≠ .minus :: rest) :
    read semantics .sum tokens =
      (read semantics .product tokens).andThen fun left => read semantics (.sumTail left) := by
  have product : read semantics .product tokens = read semantics .product (skipSpaces tokens) :=
    read_product_of_atom (read_atom_skipSpaces semantics tokens)
  rw [read_eq_step, step, product]
  split
  · exact absurd ‹_› (notPlus _)
  · exact absurd ‹_› (notMinus _)
  · rfl

/-- Subtracting what a minus sign begins is subtracting its negative. -/
theorem read_sum_minus_add (x : Exact) (tokens : List Token) :
    (read semantics .sum (.minus :: tokens)).mapValue x.add =
      read semantics (.sumTail x) (.minus :: tokens) := by
  rw [read_sum_minus, read_sumTail_minus, read_sumTail_minus]
  refine (Reading.andThen_mapValue fun right rest _ => ?_).symm
  rw [← read_sumTail_add, Exact.add_zero_sub]

end Sums

section Groups

theorem read_group_plus (tokens : List Token) :
    read semantics .group (.plus :: tokens) = read semantics .group tokens :=
  read_group_skip semantics rfl

theorem skipSpacesAndPluses_of_skipSpaces (notPlus : ∀ rest, skipSpaces tokens ≠ .plus :: rest) :
    skipSpacesAndPluses tokens = skipSpaces tokens := by
  fun_induction skipSpaces tokens with
  | case1 rest ih => exact ih notPlus
  | case2 tokens notSpace =>
      unfold skipSpacesAndPluses
      split
      · exact absurd rfl (notSpace _)
      · exact absurd rfl (notPlus _)
      · rfl

/-- A group is a sum and its closing parenthesis, unless it is empty or a plus sign begins it. -/
theorem read_group_sum {token : Token} (front : skipSpaces tokens = token :: rest)
    (notPlus : token ≠ .plus) (notClosing : token ≠ .closing) :
    read semantics .group tokens = (read semantics .sum tokens).andThen closeGroup := by
  have skipped : skipSpacesAndPluses tokens = token :: rest := by
    rw [skipSpacesAndPluses_of_skipSpaces, front]
    rw [front]
    rintro _ same
    exact notPlus (List.cons.inj same).1
  rw [read_eq_step, step, skipped, read_sum_skipSpaces, front]
  split
  · contradiction
  · rename_i same
    exact absurd (List.cons.inj same).1 notClosing
  · rename_i same
    rw [same, read_sum_minus]
    rfl
  · rfl

theorem read_product_of_failed {failure : Failure Empty}
    (failed : read semantics .atom tokens = .error failure) :
    read semantics .product tokens = .error failure := by
  have power : read semantics .power tokens = .error failure := by
    rw [read_eq_step, step, failed]
    rfl
  rw [read_eq_step, step, power]
  rfl

end Groups

section TwoMinus

variable {back : List Token}

/-- A minus sign that nothing can be negated behind. -/
theorem read_product_minus_failed {token : Token} (front : skipSpaces back = token :: rest)
    (refused : token = .plus ∨ token = .closing) (result : Exact × List Token) :
    read semantics .product (.space :: .minus :: back) ≠ .ok result := by
  have failed : ∃ failure, read semantics .atom back = .error failure := by
    rw [read_atom_skipSpaces, front, read_eq_step]
    rcases refused with rfl | rfl <;> exact ⟨_, rfl⟩
  obtain ⟨failure, failed⟩ := failed
  have negated : read semantics .atom (.space :: .minus :: back) = .error failure := by
    rw [read_atom_space, read_atom_minus, failed]
    rfl
  rw [read_product_of_failed negated]
  intro same
  cases same

/-- Subtracting a negated product adds it, and what follows it. -/
theorem read_sumTail_twice_minus (x : Exact) (notPlus : ∀ rest, skipSpaces back ≠ .plus :: rest)
    (plain : LeadsToPower back → (skipSpaces back).head? = some .minus) :
    read semantics (.sumTail x) (.minus :: .space :: .minus :: back) =
      (read semantics .sum back).mapValue x.add := by
  rw [read_sumTail_minus, read_product_space]
  by_cases minus : ∃ rest, skipSpaces back = .minus :: rest
  · obtain ⟨rest, front⟩ := minus
    have atom : read semantics .atom (.minus :: back) =
        read semantics .atom (.minus :: .minus :: rest) := by
      rw [read_atom_minus, read_atom_minus (.minus :: rest), read_atom_skipSpaces, front]
    rw [read_product_of_atom atom, read_product_twice_minus, ← read_sumTail_minus,
      ← read_sum_minus_add, read_sum_skipSpaces semantics back, front]
  · have notMinus : ∀ rest, skipSpaces back ≠ .minus :: rest :=
      fun rest front => minus ⟨rest, front⟩
    have powerless : ¬ LeadsToPower back := by
      intro power
      obtain ⟨rest, front⟩ := List.head?_eq_some_iff.mp (plain power)
      exact notMinus rest front
    rw [read_product_minus powerless, Reading.mapValue_andThen, read_sum_product notPlus notMinus]
    refine Reading.andThen_mapValue fun right rest _ => ?_
    rw [← read_sumTail_add, Exact.sub_negated]

end TwoMinus

section Signs

variable {signs : Signs}

theorem turns_of_plus (plus : signs.first = false) : signs.Turns semantics := by
  obtain ⟨first, second, back⟩ := signs
  obtain rfl : first = false := plus
  have parted : Signs.parted ⟨false, second, back⟩ =
      .plus :: .space :: Token.ofSign second :: back := rfl
  have folded : Signs.folded ⟨false, second, back⟩ = Token.ofSign second :: back := by
    cases second <;> rfl
  refine ⟨fun result found => ?_, fun result found => ?_, fun left result found => ?_⟩
  · rw [parted] at found
    rw [folded, ← found]
    exact read_group_skip semantics rfl
  · rwa [parted, read_sum_plus, read_sum_space, ← folded] at found
  · rw [parted, read_sumTail_plus, read_sum_space] at found
    rw [folded, ← found]
    cases second with
    | false =>
        simp only [Token.ofSign, Bool.false_eq_true, if_false]
        rw [read_sumTail_plus, read_sum_plus]
    | true => exact (read_sum_minus_add left back).symm

theorem read_sum_parted (minus : signs.first = true) :
    read semantics .sum signs.parted = read semantics (.sumTail (some 0)) signs.parted := by
  rw [Signs.parted, minus]
  exact read_sum_minus _

theorem read_group_parted (minus : signs.first = true) :
    read semantics .group signs.parted =
      (read semantics (.sumTail (some 0)) signs.parted).andThen closeGroup := by
  rw [Signs.parted, minus, read_eq_step]
  rfl

/-- Nothing is to be shown where the two signs are refused. -/
theorem turns_of_refused (minus : signs.first = true)
    (refused : ∀ result,
      read semantics .product (.space :: Token.ofSign signs.second :: signs.back) ≠ .ok result) :
    signs.Turns semantics := by
  have sumTail (left : Exact) : ∃ failure,
      read semantics (.sumTail left) signs.parted = .error failure := by
    rw [Signs.parted, minus, Token.ofSign, if_pos rfl, read_sumTail_minus]
    cases product : read semantics .product (.space :: Token.ofSign signs.second :: signs.back) with
    | ok result => exact absurd product (refused result)
    | error failure => exact ⟨failure, rfl⟩
  obtain ⟨failure, zero⟩ := sumTail (some 0)
  refine ⟨fun result found => ?_, fun result found => ?_, fun left result found => ?_⟩
  · rw [read_group_parted minus, zero] at found
    cases found
  · rw [read_sum_parted minus, zero] at found
    cases found
  · obtain ⟨failure, failed⟩ := sumTail left
    rw [failed] at found
    cases found

/-- A minus sign and then a plus sign are refused everywhere. -/
theorem turns_of_minus_plus (minus : signs.first = true) (plus : signs.second = false) :
    signs.Turns semantics := by
  refine turns_of_refused minus fun result => ?_
  have atom : read semantics .atom (.space :: .plus :: signs.back) =
      .error (.malformed (.unexpected "+" signs.back)) := by
    rw [read_atom_space, read_atom_plus]
  rw [plus, Token.ofSign, if_neg Bool.false_ne_true, read_product_of_failed atom]
  intro same
  cases same

theorem turns_of_both_minus (both : signs.BothMinus)
    (plain : LeadsToPower signs.back → (skipSpaces signs.back).head? = some .minus) :
    signs.Turns semantics := by
  by_cases unfit : ∃ token rest, skipSpaces signs.back = token :: rest ∧
      (token = .plus ∨ token = .closing)
  · obtain ⟨token, rest, front, unfit⟩ := unfit
    refine turns_of_refused both.1 fun result => ?_
    rw [both.2]
    exact read_product_minus_failed front unfit result
  · have notPlus : ∀ rest, skipSpaces signs.back ≠ .plus :: rest :=
      fun rest front => unfit ⟨_, rest, front, .inl rfl⟩
    have notClosing : ∀ rest, skipSpaces signs.back ≠ .closing :: rest :=
      fun rest front => unfit ⟨_, rest, front, .inr rfl⟩
    have folded : signs.folded = .plus :: signs.back := by rw [Signs.folded, both.1, both.2]; rfl
    have sumTail (left : Exact) : read semantics (.sumTail left) signs.parted =
        (read semantics .sum signs.back).mapValue left.add := by
      rw [Signs.parted, both.1, both.2]
      exact read_sumTail_twice_minus left notPlus plain
    have zero :
        read semantics (.sumTail (some 0)) signs.parted = read semantics .sum signs.back := by
      rw [sumTail]
      cases read semantics .sum signs.back with
      | error failure => rfl
      | ok result =>
          exact congrArg (fun value => Except.ok (value, result.2)) (Exact.zero_add_self _)
    refine ⟨fun result found => ?_, fun result found => ?_, fun left result found => ?_⟩
    · rw [read_group_parted both.1, zero] at found
      rw [folded, read_group_plus, ← found]
      cases front : skipSpaces signs.back with
      | nil =>
          -- no tokens are left for the closing parenthesis
          rw [read_sum_skipSpaces, front] at found
          cases found
      | cons token rest =>
          refine read_group_sum front ?_ ?_
          · rintro rfl
            exact notPlus rest front
          · rintro rfl
            exact notClosing rest front
    · rwa [read_sum_parted both.1, zero, ← read_sum_plus, ← folded] at found
    · rwa [sumTail, ← read_sumTail_plus, ← folded] at found

end Signs

/-- Wherever the sign can stand for the two, it gives the same exact value. -/
theorem Signs.Foldable.turns {signs : Signs} {front : List Token}
    (foldable : signs.Foldable front) : signs.Turns semantics := by
  cases first : signs.first with
  | false => exact turns_of_plus first
  | true =>
      cases second : signs.second with
      | false => exact turns_of_minus_plus first second
      | true => exact turns_of_both_minus ⟨first, second⟩ (foldable.power ⟨first, second⟩)

end ComplexCalculator.Grammar
