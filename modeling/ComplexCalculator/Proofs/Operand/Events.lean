import Mathlib
import ComplexCalculator.Operand

namespace ComplexCalculator

section Folding

variable {ι V ε : Type} {resolve : ι → Except ε V} {neutral : V} {combine : V → V → Except ε V}

theorem foldOperands_singleton (operand : ι) :
    foldOperands resolve neutral combine [operand] = resolve operand := by
  simp only [foldOperands, List.foldlM_nil, bind_pure]

theorem foldOperands_append (first : ι) (rest more : List ι) :
    foldOperands resolve neutral combine (first :: rest ++ more) =
      (do
        let value ← foldOperands resolve neutral combine (first :: rest)
        more.foldlM (fun value operand => do combine value (← resolve operand)) value) := by
  simp only [foldOperands, List.cons_append, List.foldlM_append, bind_assoc]

/-- The last operand is resolved when all before it have been combined. -/
theorem foldOperands_snoc {before : List ι} (nonempty : before ≠ []) (operand : ι) :
    foldOperands resolve neutral combine (before ++ [operand]) =
      (do
        let left ← foldOperands resolve neutral combine before
        combine left (← resolve operand)) := by
  obtain ⟨first, rest, rfl⟩ := List.exists_cons_of_ne_nil nonempty
  rw [foldOperands_append]
  simp only [List.foldlM_cons, List.foldlM_nil, bind_pure]

end Folding

/-- What happens in an operation. -/
inductive Event (ι : Type) where
  /-- An operand is resolved. -/
  | resolve (operand : ι)
  /-- The value of the operands `before` is combined with that of `operand`. -/
  | combine (before : List ι) (operand : ι)

namespace Event

variable {ι V ε : Type}

/-- The events that are left when the operands `before` have been combined. -/
def behind (before : List ι) : List ι → List (Event ι)
  | [] => []
  | operand :: rest =>
      .resolve operand :: .combine before operand :: behind (before ++ [operand]) rest

/-- All events, in the order in which they happen unless one fails. -/
def schedule : List ι → List (Event ι)
  | [] => []
  | first :: rest => .resolve first :: behind [first] rest

/-- What comes of an event, where `value` is what operands give. Operands are combined only when
they have values. -/
def Gives (value : List ι → Except ε V) (resolve : ι → Except ε V)
    (combine : V → V → Except ε V) : Event ι → Except ε V → Prop
  | .resolve operand, result => result = resolve operand
  | .combine before operand, result =>
      ∃ left right, value before = .ok left ∧ resolve operand = .ok right ∧
        result = combine left right

/-- The first of these events that fails, and its failure. -/
inductive FirstFailing (gives : Event ι → Except ε V → Prop) : List (Event ι) → Event ι → ε → Prop
    where
  | here {event : Event ι} {failure : ε} {later : List (Event ι)}
      (fails : gives event (.error failure)) : FirstFailing gives (event :: later) event failure
  | later {earlier event : Event ι} {failure : ε} {value : V} {events : List (Event ι)}
      (succeeds : gives earlier (.ok value)) (first : FirstFailing gives events event failure) :
      FirstFailing gives (earlier :: events) event failure

theorem FirstFailing.mem {gives : Event ι → Except ε V → Prop} {events : List (Event ι)}
    {event : Event ι} {failure : ε} (first : FirstFailing gives events event failure) :
    event ∈ events := by
  induction first with
  | here fails => exact List.mem_cons_self
  | later succeeds first ih => exact List.mem_cons_of_mem _ ih

theorem FirstFailing.fails {gives : Event ι → Except ε V → Prop} {events : List (Event ι)}
    {event : Event ι} {failure : ε} (first : FirstFailing gives events event failure) :
    gives event (.error failure) := by
  induction first with
  | here fails => exact fails
  | later succeeds first ih => exact ih

theorem exists_firstFailing_cons {gives : Event ι → Except ε V → Prop} {earlier : Event ι}
    {events : List (Event ι)} {failure : ε} :
    (∃ event, FirstFailing gives (earlier :: events) event failure) ↔
      gives earlier (.error failure) ∨
        (∃ value, gives earlier (.ok value)) ∧
          ∃ event, FirstFailing gives events event failure := by
  constructor
  · rintro ⟨event, first⟩
    cases first with
    | here fails => exact .inl fails
    | later succeeds first => exact .inr ⟨⟨_, succeeds⟩, _, first⟩
  · rintro (fails | ⟨⟨value, succeeds⟩, event, first⟩)
    · exact ⟨_, .here fails⟩
    · exact ⟨_, .later succeeds first⟩

theorem combine_mem_behind {before done rest : List ι} {operand : ι}
    (member : .combine done operand ∈ behind before rest) :
    ∃ later, before ++ rest = done ++ operand :: later := by
  induction rest generalizing before with
  | nil => cases member
  | cons next rest ih =>
      rw [behind, List.mem_cons, List.mem_cons] at member
      rcases member with same | same | member
      · cases same
      · cases same
        exact ⟨rest, rfl⟩
      · obtain ⟨later, split⟩ := ih member
        exact ⟨later, by rw [← split, List.append_assoc, List.singleton_append]⟩

/-- An operand is combined with all operands before it. -/
theorem combine_mem_schedule {operands done : List ι} {operand : ι}
    (member : .combine done operand ∈ schedule operands) :
    ∃ later, operands = done ++ operand :: later := by
  cases operands with
  | nil => cases member
  | cons first rest =>
      rw [schedule, List.mem_cons] at member
      rcases member with same | member
      · cases same
      · exact combine_mem_behind member

section Failures

variable {resolve : ι → Except ε V} {neutral : V} {combine : V → V → Except ε V}

theorem foldlM_error_iff {before : List ι} {left : V} (rest : List ι) (failure : ε)
    (nonempty : before ≠ [])
    (value : foldOperands resolve neutral combine before = .ok left) :
    rest.foldlM (fun value operand => do combine value (← resolve operand)) left =
        .error failure ↔
      ∃ event, FirstFailing (Gives (foldOperands resolve neutral combine) resolve combine)
        (behind before rest) event failure := by
  induction rest generalizing before left with
  | nil =>
      constructor
      · intro failed
        cases failed
      · rintro ⟨event, first⟩
        cases first
  | cons operand rest ih =>
      have next : foldOperands resolve neutral combine (before ++ [operand]) =
          (do
            let left ← foldOperands resolve neutral combine before
            combine left (← resolve operand)) := foldOperands_snoc nonempty operand
      rw [behind, exists_firstFailing_cons, exists_firstFailing_cons, List.foldlM_cons]
      cases resolved : resolve operand with
      | error cause => simp [Gives, resolved, bind, Except.bind, eq_comm]
      | ok right =>
          cases combined : combine left right with
          | error cause => simp [Gives, value, resolved, combined, bind, Except.bind, eq_comm]
          | ok result =>
              rw [value, resolved] at next
              have onward := ih (by simp) (next.trans combined)
              simpa [Gives, value, resolved, combined, bind, Except.bind] using onward

theorem foldOperands_error_iff (first : ι) (rest : List ι) (failure : ε) :
    foldOperands resolve neutral combine (first :: rest) = .error failure ↔
      ∃ event, FirstFailing (Gives (foldOperands resolve neutral combine) resolve combine)
        (schedule (first :: rest)) event failure := by
  rw [schedule, exists_firstFailing_cons, foldOperands]
  cases resolved : resolve first with
  | error cause => simp [Gives, resolved, bind, Except.bind, eq_comm]
  | ok value =>
      have single : foldOperands resolve neutral combine [first] = .ok value := by
        rw [foldOperands_singleton, resolved]
      have onward := foldlM_error_iff rest failure (List.cons_ne_nil first []) single
      simpa [Gives, resolved, bind, Except.bind] using onward

end Failures

end Event

/-- The operations that combine their operands two by two. -/
inductive Arithmetic where
  | sum
  | difference
  | product
  | quotient

namespace Arithmetic

def operation : Arithmetic → Operation
  | sum => .sum
  | difference => .difference
  | product => .product
  | quotient => .quotient

/-- How two values are combined. -/
def rule : Arithmetic → Complex → Complex → Except ArithmeticError Complex
  | sum => Complex.sum
  | difference => Complex.difference
  | product => Complex.product
  | quotient => Complex.quotient

def neutral : Arithmetic → Complex
  | sum | difference => Complex.zero
  | product | quotient => Complex.one

def apply (arithmetic : Arithmetic) (operands : List Operand) :
    Except EvaluationError Complex :=
  arithmetic.operation.apply operands

def Gives (arithmetic : Arithmetic) :
    Event Operand → Except EvaluationError Complex → Prop :=
  Event.Gives arithmetic.apply Operand.resolve
    fun left right => evaluated (arithmetic.rule left right)

theorem apply_eq_foldOperands (arithmetic : Arithmetic) :
    arithmetic.apply = foldOperands Operand.resolve arithmetic.neutral
      fun left right => evaluated (arithmetic.rule left right) := by
  funext operands
  cases arithmetic <;> rfl

end Arithmetic

namespace Complex

/-- A quotient fails as the checked result does, but reports the numbers that were divided. -/
theorem quotient_eq_checked (left right : Complex) :
    quotient left right = (checked (left.div right)).mapError fun _ => .division left right := by
  unfold quotient checked
  dsimp only
  split <;> rfl

theorem quotient_error {left right : Complex} {error : ArithmeticError}
    (failed : quotient left right = .error error) : error = .division left right := by
  rw [quotient_eq_checked] at failed
  cases result : checked (left.div right) with
  | ok value =>
      rw [result] at failed
      cases failed
  | error cause =>
      rw [result] at failed
      cases failed
      rfl

end Complex

namespace Arithmetic

/-- The value before a cut takes the place of the operands that gave it. -/
theorem apply_append (arithmetic : Arithmetic) (first : Operand) (rest more : List Operand) :
    arithmetic.apply (first :: rest ++ more) =
      (do
        let value ← arithmetic.apply (first :: rest)
        arithmetic.apply (.value value :: more)) := by
  rw [apply_eq_foldOperands, foldOperands_append]
  rfl

theorem quotient_fails {before : List Operand} {divisor : Operand} {failure : EvaluationError}
    (fails : Arithmetic.quotient.Gives (.combine before divisor) (.error failure)) :
    ∃ numerator denominator, Arithmetic.quotient.apply before = .ok numerator ∧
      divisor.resolve = .ok denominator ∧
      failure = .arithmetic (.division numerator denominator) := by
  obtain ⟨numerator, denominator, value, resolved, failed⟩ := fails
  change .error failure = evaluated (Complex.quotient numerator denominator) at failed
  cases divided : Complex.quotient numerator denominator with
  | ok result =>
      rw [divided] at failed
      cases failed
  | error error =>
      rw [divided, Complex.quotient_error divided] at failed
      cases failed
      exact ⟨numerator, denominator, value, resolved, rfl⟩

end Arithmetic

/-- An operation on a list of operands is a fold from the left that resolves each operand just
before it combines it. It can be cut anywhere, and it fails with the failure of the first event
that fails. A division that fails names the quotient of the operands before it and the divisor. -/
theorem apply_events (first : Operand) (rest : List Operand) :
    (∀ arithmetic : Arithmetic,
      arithmetic.apply [first] = first.resolve ∧
      (∀ last, arithmetic.apply (first :: rest ++ [last]) = (do
        let left ← arithmetic.apply (first :: rest)
        let right ← last.resolve
        evaluated (arithmetic.rule left right))) ∧
      (∀ more, arithmetic.apply (first :: rest ++ more) = (do
        let value ← arithmetic.apply (first :: rest)
        arithmetic.apply (.value value :: more))) ∧
      ∀ failure, arithmetic.apply (first :: rest) = .error failure ↔
        ∃ event, Event.FirstFailing arithmetic.Gives (Event.schedule (first :: rest)) event
          failure) ∧
    (∀ before divisor failure,
      Event.FirstFailing Arithmetic.quotient.Gives (Event.schedule (first :: rest))
        (.combine before divisor) failure →
      ∃ later numerator denominator, first :: rest = before ++ divisor :: later ∧
        Arithmetic.quotient.apply before = .ok numerator ∧ divisor.resolve = .ok denominator ∧
        failure = .arithmetic (.division numerator denominator)) ∧
    ∀ left right,
      Complex.quotient left right =
        (Complex.checked (left.div right)).mapError (fun _ => .division left right) ∧
      ∀ re im, Complex.quotient left right ≠ .error (.notFinite re im) := by
  refine ⟨fun arithmetic => ⟨?_, ?_, ?_, ?_⟩, ?_, fun left right => ⟨?_, ?_⟩⟩
  · rw [arithmetic.apply_eq_foldOperands]
    exact foldOperands_singleton first
  · intro last
    rw [arithmetic.apply_eq_foldOperands]
    exact foldOperands_snoc (List.cons_ne_nil first rest) last
  · exact arithmetic.apply_append first rest
  · intro failure
    unfold Arithmetic.Gives
    rw [arithmetic.apply_eq_foldOperands]
    exact Event.foldOperands_error_iff first rest failure
  · intro before divisor failure failing
    obtain ⟨later, split⟩ := Event.combine_mem_schedule failing.mem
    obtain ⟨numerator, denominator, division⟩ := Arithmetic.quotient_fails failing.fails
    exact ⟨later, numerator, denominator, split, division⟩
  · exact Complex.quotient_eq_checked left right
  · intro re im failed
    cases Complex.quotient_error failed

/-- Of `6`, the text `1+j` and zero, the last division fails; an unreadable text behind it is
never resolved. -/
theorem apply_events_zero :
    let before := [.real 6, .text "1+j"]
    let operands := before ++ [.real 0, .text "?"]
    let failure := .arithmetic (.division ⟨3, -3⟩ Complex.zero)
    Event.FirstFailing Arithmetic.quotient.Gives (Event.schedule operands)
        (.combine before (.real 0)) failure ∧
      Arithmetic.quotient.apply operands = .error failure ∧
      ∃ later numerator denominator, operands = before ++ .real 0 :: later ∧
        Arithmetic.quotient.apply before = .ok numerator ∧
        Operand.resolve (.real 0) = .ok denominator ∧
        failure = .arithmetic (.division numerator denominator) := by
  intro before operands failure
  have six : Operand.resolve (.real 6) = .ok ⟨6, 0⟩ := by decide +kernel
  have text : Operand.resolve (.text "1+j") = .ok ⟨1, 1⟩ := by decide +kernel
  have zero : Operand.resolve (.real 0) = .ok Complex.zero := by decide +kernel
  have divided : evaluated (Complex.quotient ⟨6, 0⟩ ⟨1, 1⟩) = .ok ⟨3, -3⟩ := by decide +kernel
  have failed : evaluated (Complex.quotient ⟨3, -3⟩ Complex.zero) = .error failure := by
    decide +kernel
  have quotient : Arithmetic.quotient.apply before = .ok ⟨3, -3⟩ := by decide +kernel
  have first : Event.FirstFailing Arithmetic.quotient.Gives (Event.schedule operands)
      (.combine before (.real 0)) failure := by
    have fails : Arithmetic.quotient.Gives (.combine before (.real 0)) (.error failure) :=
      ⟨_, _, quotient, zero, failed.symm⟩
    have combined : Arithmetic.quotient.Gives (.combine [.real 6] (.text "1+j")) (.ok ⟨3, -3⟩) :=
      ⟨_, _, six, text, divided.symm⟩
    exact .later six.symm (.later text.symm (.later combined (.later zero.symm (.here fails))))
  obtain ⟨folds, divides, -⟩ := apply_events (.real 6) [.text "1+j", .real 0, .text "?"]
  obtain ⟨-, -, -, fails⟩ := folds .quotient
  exact ⟨first, (fails failure).mpr ⟨_, first⟩, divides before (.real 0) failure first⟩

end ComplexCalculator
