import ComplexCalculator.Calculator.Window
import ComplexCalculator.Proofs.Calculator.History

namespace ComplexCalculator

theorem append_closing_ne_empty (text : String) : text ++ ")" ≠ "" := by
  intro empty
  have length := congrArg String.length empty
  simp at length

/-- A failure is always told by a text. -/
theorem Failure.message_ne_empty (failure : EvaluationError) : failure.message ≠ "" := by
  cases failure with
  | malformed error =>
      cases error with
      | unclosed => decide
      | _ => exact append_closing_ne_empty _
  | arithmetic error => cases error <;> exact append_closing_ne_empty _

theorem Answer.ofValue_result (settings : Settings) (tokens : List Token) (value : Complex) :
    (ofValue settings tokens value).result =
      (ofValue settings tokens value).renderings.get settings.form := by
  obtain ⟨form, digits⟩ := settings
  cases form <;> rfl

namespace Calculator

variable {calculator : Calculator} {settings : Settings}

/-- The state after these gestures. -/
def performAll (calculator : Calculator) (gestures : List Gesture) : Calculator :=
  gestures.foldl perform calculator

/-- The steps that these gestures make, one after the other. -/
def stepsOf (calculator : Calculator) : List Gesture → List Step
  | [] => []
  | gesture :: rest => gesture.steps calculator ++ stepsOf (calculator.perform gesture) rest

theorem performAll_eq_run (calculator : Calculator) (gestures : List Gesture) :
    calculator.performAll gestures = calculator.run (stepsOf calculator gestures) := by
  induction gestures generalizing calculator with
  | nil => rfl
  | cons gesture rest ih =>
      have next := ih (calculator.perform gesture)
      simpa [performAll, stepsOf, run, perform] using next

section Gestures

theorem perform_press (calculator : Calculator) (button : Button) :
    calculator.perform (.press button) = calculator.step button.step := rfl

theorem perform_pressThenEnter (calculator : Calculator) (button : Button) :
    calculator.perform (.pressThenEnter button) = (calculator.step button.step).evaluate := by
  simp only [perform, Gesture.steps, run, List.foldl, step]

theorem perform_chooseForm (calculator : Calculator) (form : Form) :
    calculator.perform (.chooseForm form) =
      if form ≠ calculator.form ∧ calculator.result ≠ "" then { calculator with form }.evaluate
      else { calculator with form } := by
  simp only [perform, Gesture.steps]
  split <;> simp only [run, List.foldl, step]

theorem perform_chooseDigits (calculator : Calculator) (digits : Nat) :
    calculator.perform (.chooseDigits digits) =
      if calculator.result ≠ "" then (calculator.setDigits digits).evaluate
      else calculator.setDigits digits := by
  simp only [perform, Gesture.steps]
  split <;> simp only [run, List.foldl, step]

end Gestures

/-- While no error is on the screen, the result is shown in the chosen form. -/
def Labelled (calculator : Calculator) : Prop :=
  calculator.result ≠ "" → calculator.error = "" →
    calculator.result = calculator.renderings.get calculator.form

theorem labelled_of_empty (empty : calculator.result = "") : calculator.Labelled :=
  fun shown => absurd empty shown

theorem evaluate_labelled (calculator : Calculator) : calculator.evaluate.Labelled := by
  cases found : Complex.ofText calculator.entry with
  | ok value =>
      rw [evaluate_of_value calculator found]
      exact fun _ _ => Answer.ofValue_result calculator.settings (Token.ofText calculator.entry) value
  | error failure =>
      rw [evaluate_of_failure calculator found]
      exact fun _ clear => absurd clear failure.message_ne_empty

theorem step_labelled (labelled : calculator.Labelled) (button : Button) :
    (calculator.step button.step).Labelled := by
  cases button with
  | equals => exact evaluate_labelled calculator
  | clearResults | clearAll => exact labelled_of_empty rfl
  | _ => exact labelled

theorem perform_labelled (labelled : calculator.Labelled) (gesture : Gesture) :
    (calculator.perform gesture).Labelled := by
  cases gesture with
  | press button =>
      rw [perform_press]
      exact step_labelled labelled button
  | pressThenEnter button =>
      rw [perform_pressThenEnter]
      exact evaluate_labelled _
  | type text => exact labelled
  | escape => exact labelled
  | enter => exact labelled
  | chooseForm form =>
      rw [perform_chooseForm]
      split
      · exact evaluate_labelled _
      · rename_i kept
        by_cases same : form = calculator.form
        · subst same
          exact labelled
        · exact labelled_of_empty (by simpa [same] using kept)
  | chooseDigits digits =>
      rw [perform_chooseDigits]
      split
      · exact evaluate_labelled _
      · rename_i empty
        exact labelled_of_empty (not_not.mp empty)

theorem performAll_labelled (settings : Settings) (gestures : List Gesture) :
    ((initial settings).performAll gestures).Labelled := by
  induction gestures using List.reverseRecOn with
  | nil => exact labelled_of_empty rfl
  | append_singleton gestures gesture ih =>
      simp only [performAll, List.foldl_append, List.foldl_cons, List.foldl_nil]
      exact perform_labelled ih gesture

/-- Choosing the form shows the result in it and leaves the four renderings as they are. -/
def Rerenders (calculator : Calculator) (form : Form) : Prop :=
  let next := calculator.perform (.chooseForm form)
  next.renderings = calculator.renderings ∧ next.result = calculator.renderings.get form

/-- What choosing the form needs of the screen: the entry gives the renderings that are shown, or
nothing new is written and the result already is in the form. -/
def Agrees (calculator : Calculator) (form : Form) : Prop :=
  if form = calculator.form then calculator.result = calculator.renderings.get form
  else
    match Answer.ofText calculator.settings calculator.entry with
    | .ok answer => answer.renderings = calculator.renderings
    | .error _ => calculator.result = calculator.renderings.get form

section Rerendering

variable {form : Form} {value : Complex} {failure : EvaluationError}

theorem rerenders_same (same : form = calculator.form) :
    calculator.Rerenders form ↔ calculator.result = calculator.renderings.get form := by
  have kept : ¬ (form ≠ calculator.form ∧ calculator.result ≠ "") := fun other => other.1 same
  simp only [Rerenders, perform_chooseForm, if_neg kept, true_and]

theorem rerenders_of_value (other : form ≠ calculator.form) (shown : calculator.result ≠ "")
    (found : Complex.ofText calculator.entry = .ok value) :
    calculator.Rerenders form ↔
      (Answer.ofValue calculator.settings (Token.ofText calculator.entry) value).renderings =
        calculator.renderings := by
  have result := Answer.ofValue_result { calculator with form }.settings
    (Token.ofText calculator.entry) value
  have evaluated := evaluate_of_value { calculator with form } found
  simp only [Rerenders, perform_chooseForm, if_pos (And.intro other shown), evaluated, accept,
    result]
  exact ⟨And.left, fun same => ⟨same, congrArg (Renderings.get · form) same⟩⟩

theorem rerenders_of_failure (other : form ≠ calculator.form) (shown : calculator.result ≠ "")
    (found : Complex.ofText calculator.entry = .error failure) :
    calculator.Rerenders form ↔ calculator.result = calculator.renderings.get form := by
  have evaluated := evaluate_of_failure { calculator with form } found
  simp only [Rerenders, perform_chooseForm, if_pos (And.intro other shown), evaluated, fail,
    true_and]

theorem rerenders_iff (shown : calculator.result ≠ "") :
    calculator.Rerenders form ↔ calculator.Agrees form := by
  unfold Agrees
  by_cases same : form = calculator.form
  · rw [if_pos same, rerenders_same same]
  · rw [if_neg same]
    cases found : Complex.ofText calculator.entry with
    | ok value =>
        rw [rerenders_of_value same shown found]
        simp only [Answer.ofText_eq_map, found, Except.map]
    | error failure =>
        rw [rerenders_of_failure same shown found]
        simp only [Answer.ofText_eq_map, found, Except.map]

end Rerendering

/-- The renderings are those that `source` gives for its entry. -/
def ShownFrom (source calculator : Calculator) : Prop :=
  ∃ value, Complex.ofText source.entry = .ok value ∧
    let answer := Answer.ofValue source.settings (Token.ofText source.entry) value
    calculator.result = answer.result ∧ calculator.renderings = answer.renderings

namespace ShownFrom

variable {source : Calculator} {form : Form}

theorem result (from_ : source.ShownFrom calculator) :
    calculator.result = calculator.renderings.get source.form := by
  obtain ⟨value, _, result, renderings⟩ := from_
  rw [result, renderings]
  exact Answer.ofValue_result source.settings (Token.ofText source.entry) value

theorem rerenders (from_ : source.ShownFrom calculator) (shown : calculator.result ≠ "")
    (labelled : calculator.Labelled) (entry : calculator.entry = source.entry)
    (digits : calculator.digits = source.digits)
    (inStep : form ≠ calculator.form ∨ calculator.error = "") : calculator.Rerenders form := by
  by_cases same : form = calculator.form
  · rw [rerenders_same same, same]
    exact labelled shown (inStep.resolve_left (not_not.mpr same))
  · obtain ⟨value, found, _, renderings⟩ := from_
    rw [rerenders_of_value same shown (entry ▸ found), renderings, entry]
    simp only [Answer.ofValue, settings, digits]

end ShownFrom

/-- A result on the screen comes from the latest evaluation of an entry with a value. -/
theorem exists_source {steps : List Step} (shown : ((initial settings).run steps).result ≠ "") :
    ∃ before after, Latest (Answers settings) steps before .evaluate after ∧
      ((initial settings).run before).ShownFrom ((initial settings).run steps) := by
  by_contra none
  refine shown (run_result_of_none ?_).1
  intro before step after latest
  obtain ⟨rfl, value, found⟩ := latest.ofKind
  by_contra kept
  simp only [not_exists, not_and] at kept
  exact none ⟨before, after, latest, value, found, run_result_of_latest latest kept found⟩

/-- Choosing a form shows the same result in it when the entry still gives the renderings on the
screen, in particular when it is the entry that gave them. Without an error on the screen the
result is shown in the chosen form; otherwise it is in the form of the evaluation that gave it. -/
theorem chooseForm_rerenders (settings : Settings) (gestures : List Gesture) (form : Form)
    (shown : ((initial settings).performAll gestures).result ≠ "") :
    let here := (initial settings).performAll gestures
    (here.Rerenders form ↔ here.Agrees form) ∧
    (here.error = "" → here.result = here.renderings.get here.form) ∧
    ∃ before after,
      Latest (Answers settings) (stepsOf (initial settings) gestures) before .evaluate after ∧
      let source := (initial settings).run before
      here.result = here.renderings.get source.form ∧
      (here.entry = source.entry → here.digits = source.digits →
        form ≠ here.form ∨ here.error = "" → here.Rerenders form) := by
  intro here
  have labelled : here.Labelled := performAll_labelled settings gestures
  have ran := performAll_eq_run (initial settings) gestures
  have shownRun := shown
  rw [ran] at shownRun
  obtain ⟨before, after, latest, source⟩ := exists_source shownRun
  rw [← ran] at source
  exact ⟨rerenders_iff shown, labelled shown,
    before, after, latest, source.result, source.rerenders shown labelled⟩

/-- The fixed form of `2j` is chosen behind its evaluation. -/
theorem chooseForm_rerenders_evaluated :
    let here := (initial {}).performAll [.type "2j", .press .equals]
    here.result ≠ "" ∧ here.error = "" ∧ here.result = here.renderings.get here.form ∧
      (here.Rerenders .fixed ↔ here.Agrees .fixed) := by
  intro here
  have shown : here.result ≠ "" := by decide +kernel
  have clear : here.error = "" := by decide +kernel
  obtain ⟨rerenders, labelled, _⟩ :=
    chooseForm_rerenders {} [.type "2j", .press .equals] .fixed shown
  exact ⟨shown, clear, labelled clear, rerenders⟩

/-- After `2j` the entry is cleared, and choosing the fixed form shows the value of the empty
entry. After `(` is typed instead, the result stays in the default form, but the fixed one is
chosen. -/
theorem chooseForm_edited :
    let cleared := (initial {}).performAll [.type "2j", .press .equals, .press .clearEntry]
    let opened :=
      (initial {}).performAll [.type "2j", .press .equals, .type "(", .chooseForm .fixed]
    cleared.result = "2j" ∧ cleared.renderings.fixed = "2.000000j" ∧
      (cleared.perform (.chooseForm .fixed)).result = "1.000000" ∧ ¬ cleared.Rerenders .fixed ∧
      opened.form = .fixed ∧ opened.renderings.fixed = "2.000000j" ∧ opened.result = "2j" := by
  intro cleared opened
  have fixed : cleared.renderings.fixed = "2.000000j" := by decide +kernel
  have next : (cleared.perform (.chooseForm .fixed)).result = "1.000000" := by decide +kernel
  have differs : ¬ cleared.Rerenders .fixed := by
    intro rerenders
    have same : "1.000000" = "2.000000j" := next.symm.trans (rerenders.2.trans fixed)
    exact absurd same (by decide)
  have stays : opened.renderings.fixed = "2.000000j" ∧ opened.result = "2j" := by decide +kernel
  exact ⟨by decide +kernel, fixed, next, differs, by decide +kernel, stays⟩

end Calculator

end ComplexCalculator
