import ComplexCalculator.Message
import ComplexCalculator.Operand

namespace ComplexCalculator.Console

inductive Error where
  | notText
  | evaluation (error : EvaluationError)

def Error.message : Error → String
  | notText => "entrée/sortie : stream did not contain valid UTF-8"
  | evaluation error => error.message

def answer (settings : Settings) (text : String) : Except Error String :=
  match Complex.ofText text with
  | .ok value => .ok (Display.render settings value ++ "\n")
  | .error error => .error (.evaluation error)

/-- The line for an input in UTF-8. -/
def run (settings : Settings) (input : ByteArray) : Except Error String :=
  match String.fromUTF8? input with
  | some text => answer settings text
  | none => .error .notText

end ComplexCalculator.Console
