import ComplexCalculator.Decimal.Shortest
import ComplexCalculator.Display
import ComplexCalculator.Grammar.Basic
import ComplexCalculator.Text.Quoted

namespace ComplexCalculator

/-- The parts of a number that is not finite are written in full; the operands of a division
are in the default form. -/
def ArithmeticError.message : ArithmeticError → String
  | .notFinite re im =>
      "nombre invalide : (" ++ Decimal.shortestText re ++ ", " ++
        Decimal.shortestText im ++ ")"
  | .division numerator denominator =>
      "division impossible : (" ++ Display.pretty numerator ++ ") / (" ++
        Display.pretty denominator ++ ")"

/-- The tokens that are left show their spaces. -/
def SyntaxError.message : SyntaxError → String
  | .unexpected text rest =>
      "expression invalide : jeton " ++ Text.quoted text ++ " inattendu (reste : " ++
        Text.quoted (Token.listing rest) ++ ")"
  | .strayClosing rest =>
      "analyse impossible : parenthèse fermante en trop (reste : " ++
        Token.listing rest ++ ")"
  | .unclosed => "analyse impossible : parenthèse fermante manquante"
  | .closingExpected found rest =>
      "analyse impossible : ')' attendue, trouvé " ++ Text.quoted found.text ++
        " (reste : " ++ Token.listing rest ++ ")"

def Failure.message : Failure ArithmeticError → String
  | .malformed error => error.message
  | .arithmetic error => error.message

end ComplexCalculator
