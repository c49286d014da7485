import Mathlib
import ComplexCalculator.Proofs.Grammar.Depth

/-!
Reasoning about readings.

`read_induction` is the induction on nested calls: what one step of the grammar preserves holds
of every reading; `read_induction_step` also tells what the step gives, `read_induction_marked`
what the calls give. `Reading.Meets` is a contract for a single reading, and `Meets.andThen`
composes contracts along the calls of a step.
-/

namespace ComplexCalculator.Grammar

variable {V ε : Type}

theorem read_glued_of_atEnd {semantics : Semantics V ε} {value : V} {rest : List Token}
    (ends : atEnd rest = true) : read semantics (.glued value) rest = .ok (value, rest) := by
  rw [read_eq_step, step, if_pos ends]

/-- A step gives what reading gives when its calls of smaller depth do. -/
theorem read_eq_step_of_agree {semantics : Semantics V ε} {rule : Rule V} {tokens : List Token}
    {reader : Rule V → List Token → Reading V ε}
    (agree : ∀ called left, callDepth called left < callDepth rule tokens →
      reader called left = read semantics called left) :
    read semantics rule tokens = step semantics reader rule tokens := by
  rw [read_eq_step]
  exact step_congr (read_leaves semantics) rule tokens
    fun called left smaller => (agree called left smaller).symm

/-- What a step keeps, whatever reads the rules that it calls, holds of all that is read. The step
may be taken to give what the grammar reads. Some reading must have the property, for the calls
that a step does not make. -/
theorem read_induction_step {semantics : Semantics V ε}
    (Holds : Rule V → List Token → Reading V ε → Prop)
    (possible : ∀ rule tokens, ∃ reading, Holds rule tokens reading)
    (preserved : ∀ reader, (∀ rule tokens, Holds rule tokens (reader rule tokens)) →
      ∀ rule tokens, read semantics rule tokens = step semantics reader rule tokens →
        Holds rule tokens (step semantics reader rule tokens))
    (rule : Rule V) (tokens : List Token) : Holds rule tokens (read semantics rule tokens) := by
  induction depth : callDepth rule tokens using Nat.strongRecOn generalizing rule tokens with
  | ind depth ih =>
      subst depth
      let reader : Rule V → List Token → Reading V ε := fun called left =>
        if callDepth called left < callDepth rule tokens then read semantics called left
        else (possible called left).choose
      have calls : ∀ called left, Holds called left (reader called left) := by
        intro called left
        by_cases smaller : callDepth called left < callDepth rule tokens
        · simpa only [reader, if_pos smaller] using ih _ smaller called left rfl
        · simpa only [reader, if_neg smaller] using (possible called left).choose_spec
      have same : read semantics rule tokens = step semantics reader rule tokens :=
        read_eq_step_of_agree fun called left smaller => if_pos smaller
      rw [same]
      exact preserved reader calls rule tokens same

theorem read_induction {semantics : Semantics V ε}
    (Holds : Rule V → List Token → Reading V ε → Prop)
    (possible : ∀ rule tokens, ∃ reading, Holds rule tokens reading)
    (preserved : ∀ reader, (∀ rule tokens, Holds rule tokens (reader rule tokens)) →
      ∀ rule tokens, Holds rule tokens (step semantics reader rule tokens))
    (rule : Rule V) (tokens : List Token) : Holds rule tokens (read semantics rule tokens) :=
  read_induction_step Holds possible
    (fun reader calls rule tokens _ => preserved reader calls rule tokens) rule tokens

/-- Induction on nested calls where the calls are readings of the grammar again. A call that the
step does not make fails with a marker, which no reading under proof does. -/
theorem read_induction_marked {semantics : Semantics V ε}
    (Holds : Rule V → List Token → Reading V ε → Prop)
    (preserved : ∀ marker reader,
      (∀ rule tokens, reader rule tokens = .error marker ∨
        reader rule tokens = read semantics rule tokens ∧ Holds rule tokens (reader rule tokens)) →
      ∀ rule tokens, step semantics reader rule tokens = .error marker ∨
        Holds rule tokens (step semantics reader rule tokens))
    (rule : Rule V) (tokens : List Token) : Holds rule tokens (read semantics rule tokens) := by
  induction depth : callDepth rule tokens using Nat.strongRecOn generalizing rule tokens with
  | ind depth ih =>
      subst depth
      have unmarked : ∃ marker, read semantics rule tokens ≠ .error marker := by
        by_cases same : read semantics rule tokens = .error (.malformed .unclosed)
        · exact ⟨.malformed (.strayClosing []), by simp [same]⟩
        · exact ⟨_, same⟩
      obtain ⟨marker, unmarked⟩ := unmarked
      let reader : Rule V → List Token → Reading V ε := fun called left =>
        if callDepth called left < callDepth rule tokens then read semantics called left
        else .error marker
      have calls : ∀ called left, reader called left = .error marker ∨
          reader called left = read semantics called left ∧
            Holds called left (reader called left) := by
        intro called left
        by_cases smaller : callDepth called left < callDepth rule tokens
        · refine .inr ⟨if_pos smaller, ?_⟩
          simpa only [reader, if_pos smaller] using ih _ smaller called left rfl
        · exact .inl (if_neg smaller)
      have same : read semantics rule tokens = step semantics reader rule tokens :=
        read_eq_step_of_agree fun called left smaller => if_pos smaller
      rw [same] at unmarked ⊢
      exact (preserved marker reader calls rule tokens).resolve_left unmarked

/-- A reading that gives a value leaves tokens that are `done`; one that finds malformed tokens
gives an error that is `failed`. Nothing is said when an operation has no result. -/
def Reading.Meets (reading : Reading V ε) (done : List Token → Prop)
    (failed : SyntaxError → Prop) : Prop :=
  match reading with
  | .ok (_, rest) => done rest
  | .error (.malformed error) => failed error
  | .error (.arithmetic _) => True

namespace Reading.Meets

variable {reading : Reading V ε} {next : V → List Token → Reading V ε}
variable {done after : List Token → Prop} {failed failing : SyntaxError → Prop}

theorem andThen (first : reading.Meets done failed)
    (following : ∀ value rest, done rest → (next value rest).Meets after failing)
    (errors : ∀ error, failed error → failing error) :
    (reading.andThen next).Meets after failing := by
  match reading, first with
  | .ok (value, rest), met => exact following value rest met
  | .error (.malformed error), met => exact errors error met
  | .error (.arithmetic _), _ => trivial

theorem imp (met : reading.Meets done failed) (ends : ∀ rest, done rest → after rest)
    (errors : ∀ error, failed error → failing error) : reading.Meets after failing := by
  match reading, met with
  | .ok (_, rest), met => exact ends rest met
  | .error (.malformed error), met => exact errors error met
  | .error (.arithmetic _), _ => trivial

theorem compute {result : Except ε V} {rest : List Token} (met : done rest) :
    (Grammar.compute result rest).Meets done failed := by
  cases result with
  | ok value => exact met
  | error error => trivial

end Reading.Meets

end ComplexCalculator.Grammar
