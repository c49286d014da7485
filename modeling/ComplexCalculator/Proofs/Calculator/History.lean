import Mathlib.Data.List.Induction
import ComplexCalculator.Calculator.State

/-!
What the calculator shows is a function of its history.

Each part of the screen was written by the latest step of some kind: the result by an
evaluation of an entry with a value, or by clearing; the error and the working by the latest step
that reports. `run_eq_of_latest` carries a part from its latest step to the end of the run.
-/

namespace ComplexCalculator

theorem Answer.ofText_eq_map (settings : Settings) (text : String) :
    ofText settings text = (Complex.ofText text).map (ofValue settings (Token.ofText text)) := rfl

namespace Calculator

variable {α : Type} {settings : Settings} {steps before after : List Step} {step : Step}

/-- The step between `before` and `after` is the latest of its kind among the steps. The kind of
a step depends on the steps before it. -/
structure Latest (kind : List Step → Step → Prop) (steps before : List Step) (step : Step)
    (after : List Step) : Prop where
  split : steps = before ++ step :: after
  ofKind : kind before step
  last : ∀ between later rest, after = between ++ later :: rest →
    ¬ kind (before ++ step :: between) later

/-- The step evaluates an entry that has a value. -/
def Answers (settings : Settings) (before : List Step) (step : Step) : Prop :=
  step = .evaluate ∧
    ∃ value, Complex.ofText ((initial settings).run before).entry = .ok value

def Step.Clears (step : Step) : Prop := step = .clearResults ∨ step = .reset

def Step.Reports (step : Step) : Prop :=
  step = .evaluate ∨ (∃ message, step = .fail message) ∨ step.Clears

/-- The error that a step reports when it is made here. -/
def reportedError (here : Calculator) : Step → String
  | .evaluate =>
      match Complex.ofText here.entry with
      | .ok _ => ""
      | .error failure => failure.message
  | .fail message => message
  | _ => ""

/-- The working that a step reports when it is made here. -/
def reportedWorking (here : Calculator) : Step → Working
  | .evaluate =>
      match Complex.ofText here.entry with
      | .ok value =>
          { tokens := Token.listing (Token.ofText here.entry)
            modulus := Display.real value.modulus
            argument := Display.real value.argument
            note := Working.pipelineNote }
      | .error _ => {}
  | _ => {}

section Runs

variable {kind : List Step → Step → Prop}

theorem run_snoc (calculator : Calculator) (steps : List Step) (step : Step) :
    calculator.run (steps ++ [step]) = (calculator.run steps).step step := by
  simp [run]

theorem snoc_split {next : Step} (split : steps ++ [next] = before ++ step :: after) :
    (steps = before ∧ next = step ∧ after = []) ∨
      ∃ rest, after = rest ++ [next] ∧ steps = before ++ step :: rest := by
  rcases List.eq_nil_or_concat after with rfl | ⟨rest, final, rfl⟩
  · obtain ⟨same, final⟩ := List.append_inj' split rfl
    exact .inl ⟨same, (List.cons.inj final).1, rfl⟩
  · rw [List.concat_eq_append, ← List.cons_append, ← List.append_assoc] at split
    obtain ⟨same, final⟩ := List.append_inj' split rfl
    obtain rfl : next = _ := (List.cons.inj final).1
    exact .inr ⟨rest, List.concat_eq_append, same⟩

theorem Latest.snoc (latest : Latest kind steps before step after) {next : Step}
    (other : ¬ kind steps next) : Latest kind (steps ++ [next]) before step (after ++ [next]) where
  split := by simp [latest.split]
  ofKind := latest.ofKind
  last := by
    intro between later rest split
    rcases snoc_split split with ⟨rfl, rfl, _⟩ | ⟨rest, _, split⟩
    · rw [← latest.split]
      exact other
    · exact latest.last between later rest split

/-- There is a latest step of a kind, unless no step is of the kind. -/
theorem exists_latest (kind : List Step → Step → Prop) (steps : List Step) :
    (∀ before step after, steps = before ++ step :: after → ¬ kind before step) ∨
      ∃ before step after, Latest kind steps before step after := by
  induction steps using List.reverseRecOn with
  | nil => exact .inl (by simp)
  | append_singleton steps next ih =>
      by_cases holds : kind steps next
      · exact .inr ⟨steps, next, [], rfl, holds, by simp⟩
      rcases ih with none | ⟨before, step, after, latest⟩
      · refine .inl ?_
        intro before step after split
        rcases snoc_split split with ⟨rfl, rfl, _⟩ | ⟨after, _, split⟩
        · exact holds
        · exact none before step after split
      · exact .inr ⟨before, step, after ++ [next], latest.snoc holds⟩

/-- A part that only steps of the kind write is as the latest of them left it. -/
theorem run_eq_of_latest (part : Calculator → α) {start : Calculator}
    (kept : ∀ before step, ¬ kind before step →
      part ((start.run before).step step) = part (start.run before))
    (latest : Latest kind steps before step after) :
    part (start.run steps) = part ((start.run before).step step) := by
  obtain ⟨rfl, _, last⟩ := latest
  induction after using List.reverseRecOn with
  | nil => rw [run_snoc]
  | append_singleton after next ih =>
      rw [← List.cons_append, ← List.append_assoc, run_snoc, kept _ _ (last after next [] rfl)]
      refine ih ?_
      intro between later rest split
      exact last between later (rest ++ [next]) (by simp [split])

/-- A part that only steps of the kind write is as it was at the start when there are none. -/
theorem run_eq_of_none (part : Calculator → α) {start : Calculator}
    (kept : ∀ before step, ¬ kind before step →
      part ((start.run before).step step) = part (start.run before))
    (none : ∀ before step after, steps = before ++ step :: after → ¬ kind before step) :
    part (start.run steps) = part start := by
  induction steps using List.reverseRecOn with
  | nil => rfl
  | append_singleton steps next ih =>
      rw [run_snoc, kept _ _ (none steps next [] rfl)]
      refine ih ?_
      intro before step after split
      exact none before step (after ++ [next]) (by simp [split])

end Runs

section Steps

variable {calculator : Calculator} {value : Complex} {failure : EvaluationError}

theorem evaluate_of_value (calculator : Calculator)
    (found : Complex.ofText calculator.entry = .ok value) :
    calculator.evaluate = calculator.accept
      (.ofValue calculator.settings (Token.ofText calculator.entry) value) := by
  simp only [evaluate, Answer.ofText_eq_map, found, Except.map]

theorem evaluate_of_failure (calculator : Calculator)
    (found : Complex.ofText calculator.entry = .error failure) :
    calculator.evaluate = calculator.fail failure.message := by
  simp only [evaluate, Answer.ofText_eq_map, found, Except.map]

theorem evaluate_result (found : Complex.ofText calculator.entry = .ok value) :
    (calculator.evaluate.result, calculator.evaluate.renderings) =
      (Display.render calculator.settings value,
        { pretty := Display.pretty value
          polar := Display.polar value
          fixed := Display.fixed calculator.digits value
          precision := Display.precision calculator.digits value : Renderings }) := by
  rw [evaluate_of_value calculator found]
  rfl

theorem step_digits (bounded : calculator.digits ≤ maxDigits) (step : Step) :
    (calculator.step step).digits ≤ maxDigits := by
  cases step with
  | evaluate =>
      cases found : Complex.ofText calculator.entry with
      | ok value =>
          rw [Calculator.step, evaluate_of_value calculator found]
          exact bounded
      | error failure =>
          rw [Calculator.step, evaluate_of_failure calculator found]
          exact bounded
  | setDigits digits => exact Nat.min_le_right _ _
  | reset => exact Nat.min_le_right _ _
  | _ => exact bounded

theorem run_digits (settings : Settings) (steps : List Step) :
    ((initial settings).run steps).digits ≤ maxDigits := by
  induction steps using List.reverseRecOn with
  | nil => exact Nat.min_le_right _ _
  | append_singleton steps step ih =>
      rw [run_snoc]
      exact step_digits ih step

/-- The result is written by an evaluation with a value, and by clearing. -/
theorem step_result_kept (settings : Settings) (before : List Step) (step : Step)
    (other : ¬ (Answers settings before step ∨ step.Clears)) :
    let here := (initial settings).run before
    ((here.step step).result, (here.step step).renderings) = (here.result, here.renderings) := by
  intro here
  cases step with
  | evaluate =>
      cases found : Complex.ofText here.entry with
      | ok value => exact absurd (.inl ⟨rfl, value, found⟩) other
      | error failure =>
          rw [Calculator.step, evaluate_of_failure here found]
          rfl
  | clearResults => exact absurd (.inr (.inl rfl)) other
  | reset => exact absurd (.inr (.inr rfl)) other
  | _ => rfl

theorem step_report_kept (calculator : Calculator) (step : Step) (other : ¬ step.Reports) :
    ((calculator.step step).error, (calculator.step step).working) =
      (calculator.error, calculator.working) := by
  cases step with
  | evaluate => exact absurd (.inl rfl) other
  | fail message => exact absurd (.inr (.inl ⟨message, rfl⟩)) other
  | clearResults => exact absurd (.inr (.inr (.inl rfl))) other
  | reset => exact absurd (.inr (.inr (.inr rfl))) other
  | _ => rfl

theorem step_report (calculator : Calculator) (reports : step.Reports) :
    ((calculator.step step).error, (calculator.step step).working) =
      (reportedError calculator step, reportedWorking calculator step) := by
  rcases reports with rfl | ⟨message, rfl⟩ | rfl | rfl
  · simp only [reportedError, reportedWorking]
    cases found : Complex.ofText calculator.entry with
    | ok value =>
        rw [Calculator.step, evaluate_of_value calculator found]
        rfl
    | error failure =>
        rw [Calculator.step, evaluate_of_failure calculator found]
        rfl
  · rfl
  · rfl
  · rfl

theorem step_clears (clears : step.Clears) :
    ((calculator.step step).result, (calculator.step step).renderings) =
      ("", ({} : Renderings)) := by
  rcases clears with rfl | rfl <;> rfl

/-- What reports an error reports no working. -/
theorem reportedWorking_of_error (shown : reportedError calculator step ≠ "") :
    reportedWorking calculator step = {} := by
  cases step with
  | evaluate =>
      simp only [reportedError, reportedWorking] at shown ⊢
      cases found : Complex.ofText calculator.entry with
      | ok value =>
          rw [found] at shown
          exact absurd rfl shown
      | error failure => rfl
  | _ => rfl

end Steps

section Results

theorem run_result_of_latest {value : Complex}
    (latest : Latest (Answers settings) steps before .evaluate after)
    (kept : ∀ step ∈ after, ¬ step.Clears)
    (found : Complex.ofText ((initial settings).run before).entry = .ok value) :
    let here := (initial settings).run before
    ((initial settings).run steps).result = Display.render here.settings value ∧
      ((initial settings).run steps).renderings =
        { pretty := Display.pretty value
          polar := Display.polar value
          fixed := Display.fixed here.digits value
          precision := Display.precision here.digits value } := by
  intro here
  have writes : Latest (fun before step => Answers settings before step ∨ step.Clears)
      steps before .evaluate after := by
    refine ⟨latest.split, .inl latest.ofKind, ?_⟩
    intro between later rest split kind
    rcases kind with answers | clears
    · exact latest.last between later rest split answers
    · exact kept later (by simp [split]) clears
  have same := run_eq_of_latest (fun here => (here.result, here.renderings))
    (step_result_kept settings) writes
  simp only [Calculator.step, evaluate_result found] at same
  exact Prod.mk.inj same

theorem run_result_of_none
    (none : ∀ before step after, Latest (Answers settings) steps before step after →
      ∃ step ∈ after, step.Clears) :
    ((initial settings).run steps).result = "" ∧
      ((initial settings).run steps).renderings = {} := by
  rw [← Prod.mk.injEq]
  -- the latest step that writes the result cannot be an answer, so it clears, if there is one
  rcases exists_latest (fun before step => Answers settings before step ∨ step.Clears) steps with
    unwritten | ⟨before, step, after, writes⟩
  · exact run_eq_of_none (fun here => (here.result, here.renderings))
      (step_result_kept settings) unwritten
  · rw [run_eq_of_latest (fun here => (here.result, here.renderings))
      (step_result_kept settings) writes]
    rcases writes.ofKind with answers | clears
    · have latest : Latest (Answers settings) steps before step after :=
        ⟨writes.split, answers, fun between later rest split answers =>
          writes.last between later rest split (.inl answers)⟩
      obtain ⟨later, member, clears⟩ := none before step after latest
      obtain ⟨between, rest, split⟩ := List.append_of_mem member
      exact absurd (.inr clears) (writes.last between later rest split)
    · exact step_clears clears

theorem run_report_of_latest (settings : Settings)
    (latest : Latest (fun _ step => step.Reports) steps before step after) :
    let here := (initial settings).run before
    ((initial settings).run steps).error = reportedError here step ∧
      ((initial settings).run steps).working = reportedWorking here step := by
  intro here
  have same := run_eq_of_latest (fun here => (here.error, here.working))
    (fun before step => step_report_kept ((initial settings).run before) step) latest
  exact Prod.mk.inj (same.trans (step_report here latest.ofKind))

theorem run_report_of_none (none : ∀ step ∈ steps, ¬ step.Reports) :
    ((initial settings).run steps).error = "" ∧
      ((initial settings).run steps).working = {} := by
  rw [← Prod.mk.injEq]
  refine run_eq_of_none (fun here => (here.error, here.working))
    (fun before step => step_report_kept ((initial settings).run before) step) ?_
  intro before step after split
  exact none step (by simp [split])

theorem run_working_of_error (shown : ((initial settings).run steps).error ≠ "") :
    ((initial settings).run steps).working = {} := by
  rcases exists_latest (fun _ step => step.Reports) steps with none | ⟨before, step, after, latest⟩
  · refine (run_report_of_none ?_).2
    intro step member
    obtain ⟨before, after, split⟩ := List.append_of_mem member
    exact none before step after split
  · obtain ⟨error, working⟩ := run_report_of_latest settings latest
    rw [error] at shown
    rw [working]
    exact reportedWorking_of_error shown

end Results

/-- The history of a run says what the calculator shows. The result and the four renderings are
those of the value that the latest evaluation with a value found, in the form and with the digits
that were set then, unless they were cleared since. The error and the working are those of the
latest step that reports. -/
theorem run_history (settings : Settings) (steps : List Step) :
    let last := (initial settings).run steps
    last.digits ≤ 20 ∧
    ((∀ before after value, Latest (Answers settings) steps before .evaluate after →
        (∀ step ∈ after, ¬ step.Clears) →
        let here := (initial settings).run before
        Complex.ofText here.entry = .ok value →
        last.result = Display.render here.settings value ∧
          last.renderings =
            { pretty := Display.pretty value
              polar := Display.polar value
              fixed := Display.fixed here.digits value
              precision := Display.precision here.digits value }) ∧
      ((∀ before step after, Latest (Answers settings) steps before step after →
        ∃ step ∈ after, step.Clears) → last.result = "" ∧ last.renderings = {})) ∧
    ((∀ before step after, Latest (fun _ step => step.Reports) steps before step after →
        let here := (initial settings).run before
        last.error = reportedError here step ∧ last.working = reportedWorking here step) ∧
      ((∀ step ∈ steps, ¬ step.Reports) → last.error = "" ∧ last.working = {})) ∧
    (last.error ≠ "" → last.working = {}) ∧
    ∀ failure, Complex.ofText last.entry = .error failure →
      let next := last.evaluate
      next.entry = last.entry ∧ next.result = last.result ∧ next.renderings = last.renderings ∧
        next.form = last.form ∧ next.digits = last.digits := by
  intro last
  refine ⟨run_digits settings steps, ⟨?_, run_result_of_none⟩, ⟨?_, run_report_of_none⟩,
    run_working_of_error, ?_⟩
  · intro before after value latest kept here found
    exact run_result_of_latest latest kept found
  · intro before step after latest
    exact run_report_of_latest settings latest
  · intro failure found
    rw [evaluate_of_failure last found]
    exact ⟨rfl, rfl, rfl, rfl, rfl⟩

/-- `e` is evaluated in the fixed form with three digits. Then the form and the digits are changed
and `(` is evaluated, which fails: the texts of `e` stay as they were, and its working goes. -/
theorem run_history_unclosed :
    let before := [Step.setForm .fixed, .setDigits 3, .type "e"]
    let between := [Step.setForm .polar, .setDigits 8, .type "("]
    let steps := before ++ .evaluate :: (between ++ [.evaluate])
    let answered := (initial {}).run (before ++ [.evaluate])
    let last := (initial {}).run steps
    Latest (Answers {}) steps before .evaluate (between ++ [.evaluate]) ∧
      (∀ step ∈ between ++ [.evaluate], ¬ step.Clears) ∧
      Complex.ofText ((initial {}).run before).entry = .ok Complex.euler ∧
      Complex.ofText last.entry = .error (.malformed .unclosed) ∧
      answered.working =
        { tokens := "e"
          modulus := "2.718281828459"
          argument := Display.real Complex.euler.argument
          note := Working.pipelineNote } ∧
      last.form = .polar ∧ last.digits = 8 ∧ last.result = "2.718" ∧
      last.renderings =
        { pretty := "2.718281828459"
          polar := "2.718281828459"
          fixed := "2.718"
          precision := "2.72" } ∧
      last.error = "analyse impossible : parenthèse fermante manquante" ∧ last.working = {} ∧
      last.evaluate.result = last.result := by
  intro before between steps answered last
  have read : Complex.ofText "e" = .ok Complex.euler := by decide +kernel
  have refused : Complex.ofText "(" = .error (.malformed .unclosed) := by decide +kernel
  have entry : ((initial {}).run before).entry = "e" := rfl
  have entryThen : ((initial {}).run (before ++ .evaluate :: between)).entry = "(" := by
    decide +kernel
  have entryLast : last.entry = "(" := by decide +kernel
  have failing : ¬ Answers {} (before ++ .evaluate :: between) .evaluate := by
    simp [Answers, entryThen, refused]
  have first : Latest (Answers {}) (before ++ [.evaluate]) before .evaluate [] :=
    ⟨rfl, ⟨rfl, Complex.euler, read⟩, by simp⟩
  have latest : Latest (Answers {}) steps before .evaluate (between ++ [.evaluate]) :=
    (((first.snoc (by simp [Answers])).snoc (by simp [Answers])).snoc (by simp [Answers])).snoc
      failing
  have kept : ∀ step ∈ between ++ [.evaluate], ¬ step.Clears := by simp [between, Step.Clears]
  have reports : Latest (fun _ step => step.Reports) (before ++ [.evaluate]) before .evaluate [] :=
    ⟨rfl, .inl rfl, by simp⟩
  have reportsLast : Latest (fun _ step => step.Reports) steps (before ++ .evaluate :: between)
      .evaluate [] := ⟨rfl, .inl rfl, by simp⟩
  obtain ⟨-, -, ⟨answeredReport, -⟩, -, -⟩ := run_history {} (before ++ [.evaluate])
  obtain ⟨-, ⟨shows, -⟩, ⟨report, -⟩, ofError, ofFailure⟩ := run_history {} steps
  have working : answered.working =
      { tokens := "e"
        modulus := "2.718281828459"
        argument := Display.real Complex.euler.argument
        note := Working.pipelineNote } := by
    have tokens : Token.listing (Token.ofText "e") = "e" := by decide +kernel
    have modulus : Display.real Complex.euler.modulus = "2.718281828459" := by decide +kernel
    rw [(answeredReport _ _ _ reports).2]
    simp only [reportedWorking, entry, read, tokens, modulus]
  have error : last.error = "analyse impossible : parenthèse fermante manquante" := by
    rw [(report _ _ _ reportsLast).1]
    simp only [reportedError, entryThen, refused]
    rfl
  obtain ⟨result, renderings⟩ := shows _ _ _ latest kept read
  have cleared : last.working = {} := ofError (by rw [error]; decide)
  have failed : Complex.ofText last.entry = .error (.malformed .unclosed) := by
    rw [entryLast, refused]
  exact ⟨latest, kept, read, failed, working, by decide +kernel, by decide +kernel,
    result.trans (by decide +kernel), renderings.trans (by decide +kernel), error, cleared,
    (ofFailure _ failed).2.1⟩

end Calculator

end ComplexCalculator
