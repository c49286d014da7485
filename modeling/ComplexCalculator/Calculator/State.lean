import ComplexCalculator.Calculator.Entry
import ComplexCalculator.Message
import ComplexCalculator.Operand

namespace ComplexCalculator

structure Calculator where
  entry : String
  /-- The last result, in the form that was chosen when it was evaluated. -/
  result : String
  renderings : Renderings
  /-- The message of the last failure, empty when there is none. -/
  error : String
  working : Working
  form : Form
  digits : Nat
  /-- Whether the entry field is to receive the focus. -/
  focusEntry : Bool
deriving DecidableEq, Repr

namespace Calculator

def maxDigits : Nat := 20

def initial (settings : Settings) : Calculator where
  entry := ""
  result := ""
  renderings := {}
  error := ""
  working := {}
  form := settings.form
  digits := min settings.digits maxDigits
  focusEntry := true

def settings (calculator : Calculator) : Settings :=
  { form := calculator.form, digits := calculator.digits }

def clearEntry (calculator : Calculator) : Calculator :=
  { calculator with entry := "", focusEntry := true }

/-- Clears the result, the error and the working; the entry stays. -/
def clearResults (calculator : Calculator) : Calculator :=
  { calculator with
    result := "", renderings := {}, error := "", working := {}, focusEntry := true }

def reset (_ : Calculator) : Calculator :=
  initial {}

/-- Shows an error. The last result stays, its working does not. -/
def fail (message : String) (calculator : Calculator) : Calculator :=
  { calculator with error := message, working := {}, focusEntry := true }

def accept (answer : Answer) (calculator : Calculator) : Calculator :=
  { calculator with
    result := answer.result
    renderings := answer.renderings
    error := ""
    working := answer.working
    focusEntry := true }

def evaluate (calculator : Calculator) : Calculator :=
  match Answer.ofText calculator.settings calculator.entry with
  | .ok answer => calculator.accept answer
  | .error error => calculator.fail error.message

def setDigits (digits : Nat) (calculator : Calculator) : Calculator :=
  { calculator with digits := min digits maxDigits, focusEntry := true }

def releaseFocus (calculator : Calculator) : Calculator :=
  { calculator with focusEntry := false }

inductive Step where
  /-- Replaces the entry. -/
  | type (text : String)
  | insert (kind : Entry.Kind) (text : String)
  | delete
  | clearEntry
  | clearResults
  | reset
  | evaluate
  | fail (message : String)
  | setDigits (digits : Nat)
  | setForm (form : Form)
deriving DecidableEq, Repr

def step (calculator : Calculator) : Step → Calculator
  | .type text => { calculator with entry := text }
  | .insert kind text => { calculator with entry := Entry.insert kind text calculator.entry }
  | .delete => { calculator with entry := Entry.delete calculator.entry }
  | .clearEntry => calculator.clearEntry
  | .clearResults => calculator.clearResults
  | .reset => calculator.reset
  | .evaluate => calculator.evaluate
  | .fail message => calculator.fail message
  | .setDigits digits => calculator.setDigits digits
  | .setForm form => { calculator with form := form }

def run (calculator : Calculator) (steps : List Step) : Calculator :=
  steps.foldl step calculator

end Calculator

end ComplexCalculator
