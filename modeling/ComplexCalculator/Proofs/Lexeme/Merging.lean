import Mathlib
import ComplexCalculator.Lexeme

/-!
Passes that join neighbours.

A `Joining` combines any two neighbours of a class into one of the same class, and `merge`
does so until none are left. A pass that joins some neighbours of the class leaves the merged
lexemes the same, so repeating passes that are not stable before all neighbours are joined
comes to the merged lexemes: `settle_eq_merge`.
-/

namespace ComplexCalculator.Lexeme

/-- A class of lexemes of which any two neighbours make one. -/
structure Joining where
  member : Lexeme → Bool
  combine : Lexeme → Lexeme → Lexeme
  closed : ∀ {a b}, member a = true → member b = true → member (combine a b) = true
  assoc : ∀ {a b c}, member a = true → member b = true → member c = true →
    combine (combine a b) c = combine a (combine b c)

namespace Joining

variable (joining : Joining)

def push (first : Lexeme) : List Lexeme → List Lexeme
  | [] => [first]
  | second :: rest =>
      if joining.member first && joining.member second then
        joining.combine first second :: rest
      else first :: second :: rest

def merge (lexemes : List Lexeme) : List Lexeme := lexemes.foldr joining.push []

/-- A rule that does nothing but join two neighbours of the class. -/
def Joins (rule : Rule) : Prop :=
  ∀ lexemes, rule lexemes = none ∨ ∃ first second rest, lexemes = first :: second :: rest ∧
    joining.member first = true ∧ joining.member second = true ∧
    rule lexemes = some (joining.combine first second, 1)

@[simp] theorem merge_cons (first : Lexeme) (rest : List Lexeme) :
    joining.merge (first :: rest) = joining.push first (joining.merge rest) := rfl

variable {joining}

theorem push_cons (first second : Lexeme) (rest : List Lexeme) :
    joining.push first (second :: rest) =
      if joining.member first && joining.member second then
        joining.combine first second :: rest
      else first :: second :: rest := rfl

theorem push_of_not_member {first : Lexeme} (outside : joining.member first = false)
    (merged : List Lexeme) : joining.push first merged = first :: merged := by
  cases merged with
  | nil => rfl
  | cons second rest => simp [push, outside]

theorem push_combine {first second : Lexeme} (left : joining.member first = true)
    (right : joining.member second = true) (merged : List Lexeme) :
    joining.push (joining.combine first second) merged =
      joining.push first (joining.push second merged) := by
  have closed := joining.closed left right
  cases merged with
  | nil => simp [push, left, right]
  | cons third rest =>
      cases member : joining.member third with
      | false => simp [push, left, right, closed, member]
      | true =>
          have inner := joining.closed right member
          simp [push, left, right, closed, member, inner, joining.assoc left right member]

end Joining

theorem replaceFrom_eq_drop (rule : Rule) (skipped : Nat) (lexemes : List Lexeme) :
    replaceFrom rule skipped lexemes = replace rule (lexemes.drop skipped) := by
  induction lexemes generalizing skipped with
  | nil => cases skipped <;> rfl
  | cons lexeme rest ih =>
      cases skipped with
      | zero => rfl
      | succ skipped => exact ih skipped

theorem replace_cons_none {rule : Rule} {lexeme : Lexeme} {rest : List Lexeme}
    (misses : rule (lexeme :: rest) = none) :
    replace rule (lexeme :: rest) = lexeme :: replace rule rest := by
  simp [replace, replaceFrom, misses]

theorem replace_cons_some {rule : Rule} {lexeme replacement : Lexeme} {rest : List Lexeme}
    {extra : Nat} (fits : rule (lexeme :: rest) = some (replacement, extra)) :
    replace rule (lexeme :: rest) = replacement :: replace rule (rest.drop extra) := by
  rw [← replaceFrom_eq_drop]
  simp [replace, replaceFrom, fits]

namespace Joining

variable {joining : Joining} {rule : Rule}

theorem Joins.induction (joins : joining.Joins rule) {Holds : List Lexeme → Prop}
    (nil : Holds [])
    (kept : ∀ lexeme rest, rule (lexeme :: rest) = none → Holds rest → Holds (lexeme :: rest))
    (joined : ∀ first second rest, joining.member first = true → joining.member second = true →
      rule (first :: second :: rest) = some (joining.combine first second, 1) →
      Holds rest → Holds (first :: second :: rest))
    (lexemes : List Lexeme) : Holds lexemes := by
  induction size : lexemes.length using Nat.strongRecOn generalizing lexemes with
  | ind size ih =>
      subst size
      cases lexemes with
      | nil => exact nil
      | cons lexeme rest =>
          rcases joins (lexeme :: rest) with misses | ⟨first, second, tail, same, left, right, fits⟩
          · exact kept lexeme rest misses (ih _ (Nat.lt_succ_self _) rest rfl)
          · rw [same] at fits ⊢
            refine joined first second tail left right fits (ih _ ?_ tail rfl)
            rw [same]
            simp only [List.length_cons]
            omega

theorem merge_replace (joins : joining.Joins rule) (lexemes : List Lexeme) :
    joining.merge (replace rule lexemes) = joining.merge lexemes := by
  induction lexemes using joins.induction with
  | nil => rfl
  | kept lexeme rest misses ih => rw [replace_cons_none misses, merge_cons, ih, merge_cons]
  | joined first second rest left right fits ih =>
      rw [replace_cons_some fits, merge_cons, List.drop_succ_cons, List.drop_zero, ih,
        push_combine left right, merge_cons, merge_cons]

theorem length_replace_le (joins : joining.Joins rule) (lexemes : List Lexeme) :
    (replace rule lexemes).length ≤ lexemes.length := by
  induction lexemes using joins.induction with
  | nil => exact Nat.le_refl _
  | kept lexeme rest misses ih =>
      rw [replace_cons_none misses]
      exact Nat.succ_le_succ ih
  | joined first second rest left right fits ih =>
      rw [replace_cons_some fits]
      simp only [List.length_cons, List.drop_succ_cons, List.drop_zero] at ih ⊢
      omega

/-- A pass that keeps the number of lexemes finds nothing to join. -/
theorem misses_of_length_replace (joins : joining.Joins rule) {lexemes : List Lexeme}
    (same : (replace rule lexemes).length = lexemes.length) :
    replace rule lexemes = lexemes ∧ ∀ suffix, suffix <:+ lexemes → rule suffix = none := by
  induction lexemes using joins.induction with
  | nil =>
      refine ⟨rfl, fun suffix within => ?_⟩
      rw [List.suffix_nil.mp within]
      rcases joins [] with misses | ⟨_, _, _, impossible, _⟩
      · exact misses
      · contradiction
  | kept lexeme rest misses ih =>
      rw [replace_cons_none misses] at same ⊢
      obtain ⟨unchanged, missed⟩ := ih (Nat.succ.inj same)
      refine ⟨by rw [unchanged], fun suffix within => ?_⟩
      rcases List.suffix_cons_iff.mp within with rfl | within
      · exact misses
      · exact missed suffix within
  | joined first second rest left right fits ih =>
      have shorter := length_replace_le joins rest
      rw [replace_cons_some fits] at same
      simp only [List.length_cons, List.drop_succ_cons, List.drop_zero] at same
      omega

def Apart (joining : Joining) (lexemes : List Lexeme) : Prop :=
  ∀ first second rest, first :: second :: rest <:+ lexemes →
    (joining.member first && joining.member second) = false

theorem Apart.tail {first : Lexeme} {rest : List Lexeme} (apart : joining.Apart (first :: rest)) :
    joining.Apart rest :=
  fun a b tail within => apart a b tail (within.trans (List.suffix_cons first rest))

theorem Apart.front {front rest : List Lexeme} (apart : joining.Apart (front ++ rest)) :
    joining.Apart front := by
  intro a b tail within
  obtain ⟨before, rfl⟩ := within
  exact apart a b (tail ++ rest) ⟨before, by simp⟩

theorem merge_of_apart {lexemes : List Lexeme} (apart : joining.Apart lexemes) :
    joining.merge lexemes = lexemes := by
  induction lexemes with
  | nil => rfl
  | cons first rest ih =>
      rw [merge_cons, ih apart.tail]
      cases rest with
      | nil => rfl
      | cons second rest => simp [push, apart first second rest (List.suffix_refl _)]

theorem apart_cons {first : Lexeme} {rest : List Lexeme} (apart : joining.Apart rest)
    (front : ∀ second ∈ rest.head?, (joining.member first && joining.member second) = false) :
    joining.Apart (first :: rest) := by
  intro a b tail within
  rcases List.suffix_cons_iff.mp within with whole | within
  · obtain ⟨rfl, rfl⟩ := List.cons.inj whole
    exact front b rfl
  · exact apart a b tail within

theorem apart_push {merged : List Lexeme} (apart : joining.Apart merged) (first : Lexeme) :
    joining.Apart (joining.push first merged) := by
  cases merged with
  | nil => exact apart_cons apart nofun
  | cons second rest =>
      rw [push_cons]
      split
      · rename_i both
        refine apart_cons apart.tail fun third found => ?_
        obtain ⟨more, rfl⟩ := List.head?_eq_some_iff.mp found
        have outside := apart second third more (List.suffix_refl _)
        simp only [Bool.and_eq_true] at both
        rw [both.2, Bool.true_and] at outside
        rw [outside, Bool.and_false]
      · rename_i apartHere
        refine apart_cons apart fun third found => ?_
        cases found
        simpa using apartHere

theorem apart_merge (lexemes : List Lexeme) : joining.Apart (joining.merge lexemes) := by
  induction lexemes with
  | nil => exact fun a b tail within => absurd (List.suffix_nil.mp within) (List.cons_ne_nil _ _)
  | cons first rest ih => exact apart_push ih first

theorem foldr_push (first : Lexeme) (merged behind : List Lexeme) :
    (joining.push first merged).foldr joining.push behind =
      joining.push first (merged.foldr joining.push behind) := by
  cases merged with
  | nil => rfl
  | cons second rest =>
      rw [push_cons]
      split
      · rename_i both
        simp only [Bool.and_eq_true] at both
        exact push_combine both.1 both.2 _
      · rfl

/-- What is merged in front may be merged before the rest. -/
theorem merge_append (front rest : List Lexeme) :
    joining.merge (front ++ rest) =
      (joining.merge front).foldr joining.push (joining.merge rest) := by
  induction front with
  | nil => rfl
  | cons first front ih => rw [List.cons_append, merge_cons, merge_cons, ih, foldr_push]

theorem foldr_push_of_apart {front : List Lexeme} (apart : joining.Apart front)
    (last : ∀ lexeme ∈ front.getLast?, joining.member lexeme = false) (behind : List Lexeme) :
    front.foldr joining.push behind = front ++ behind := by
  induction front with
  | nil => rfl
  | cons first rest ih =>
      cases rest with
      | nil => exact push_of_not_member (last first rfl) behind
      | cons second more =>
          have others := ih apart.tail fun lexeme found => last lexeme (by simpa using found)
          have notBoth := apart first second more (List.suffix_refl _)
          rw [List.foldr_cons, others]
          simp [push, notBoth]

/-- Repeating a pass that joins neighbours until it changes nothing joins all neighbours. -/
theorem settle_eq_merge {pass : List Lexeme → List Lexeme}
    (keeps : ∀ lexemes, joining.merge (pass lexemes) = joining.merge lexemes)
    (shortens : ∀ lexemes, pass lexemes ≠ lexemes → (pass lexemes).length < lexemes.length)
    (stable : ∀ lexemes, pass lexemes = lexemes → joining.Apart lexemes)
    {rounds : Nat} {lexemes : List Lexeme} (enough : lexemes.length ≤ rounds) :
    settle pass rounds lexemes = joining.merge lexemes := by
  induction rounds generalizing lexemes with
  | zero =>
      obtain rfl := List.length_eq_zero_iff.mp (Nat.le_zero.mp enough)
      rfl
  | succ rounds ih =>
      simp only [settle]
      split
      · rename_i unchanged
        exact (merge_of_apart (stable lexemes unchanged)).symm
      · rename_i changed
        have shorter := shortens lexemes changed
        rw [ih (by omega), keeps]

end Joining

end ComplexCalculator.Lexeme
