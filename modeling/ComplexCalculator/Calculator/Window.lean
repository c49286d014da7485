import ComplexCalculator.Calculator.State

namespace ComplexCalculator

inductive Key where
  | digit (value : Fin 10)
  | point
  /-- The imaginary unit on the number pad. -/
  | padUnit
  | imaginaryUnit
  | pi
  | euler
  | exp
  | ln
  | opening
  | closing
  | plus
  | minus
  | star
  | slash
  | caret
deriving DecidableEq, Repr

namespace Key

def text : Key → String
  | digit value => String.ofList [Nat.digitChar value]
  | point => "."
  | padUnit => "j"
  | imaginaryUnit => "j"
  | pi => "π"
  | euler => "e"
  | exp => "exp("
  | ln => "ln("
  | opening => "("
  | closing => ")"
  | plus => "+"
  | minus => "-"
  | star => "*"
  | slash => "/"
  | caret => "^"

def kind : Key → Entry.Kind
  | digit _ | point | padUnit => .digit
  | imaginaryUnit | pi | euler => .word
  | exp | ln => .function
  | opening => .opening
  | closing => .closing
  | plus | minus | star | slash | caret => .operator

end Key

inductive Button where
  | insert (key : Key)
  | equals
  | delete
  | clearEntry
  | clearResults
  | clearAll
deriving DecidableEq, Repr

def Button.step : Button → Calculator.Step
  | insert key => .insert key.kind key.text
  | equals => .evaluate
  | delete => .delete
  | clearEntry => .clearEntry
  | clearResults => .clearResults
  | clearAll => .reset

/-- What a user does with the window. -/
inductive Gesture where
  | press (button : Button)
  /-- A button, and the enter key while the entry field receives the focus. -/
  | pressThenEnter (button : Button)
  /-- Replaces the text of the entry field. -/
  | type (text : String)
  | escape
  /-- The enter key alone: the entry field gives up the focus, and nothing is evaluated. -/
  | enter
  | chooseForm (form : Form)
  | chooseDigits (digits : Nat)
deriving DecidableEq, Repr

/-- The steps that a gesture makes in this state. -/
def Gesture.steps (calculator : Calculator) : Gesture → List Calculator.Step
  | press button => [button.step]
  | pressThenEnter button => [button.step, .evaluate]
  | type text => [.type text]
  | escape => [.clearEntry]
  | enter => []
  | chooseForm form =>
      if form ≠ calculator.form ∧ calculator.result ≠ "" then [.setForm form, .evaluate]
      else [.setForm form]
  | chooseDigits digits =>
      if calculator.result ≠ "" then [.setDigits digits, .evaluate] else [.setDigits digits]

def Calculator.perform (calculator : Calculator) (gesture : Gesture) : Calculator :=
  calculator.run (gesture.steps calculator)

end ComplexCalculator
