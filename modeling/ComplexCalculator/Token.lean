import ComplexCalculator.Decimal.Numeral
import ComplexCalculator.Lexeme

namespace ComplexCalculator

open Decimal (Numeral)

inductive Token where
  | number (text : String)
  | imaginaryUnit
  | euler
  | exp
  | ln
  | plus
  | minus
  | star
  | slash
  | caret
  | opening
  | closing
  | space
  /-- What the grammar refuses wherever it meets it. -/
  | unknown (text : String)
deriving DecidableEq, Repr

namespace Token

def text : Token → String
  | number text => text
  | imaginaryUnit => "j"
  | euler => "e"
  | exp => "exp"
  | ln => "ln"
  | plus => "+"
  | minus => "-"
  | star => "*"
  | slash => "/"
  | caret => "^"
  | opening => "("
  | closing => ")"
  | space => " "
  | unknown text => text

/-- The text of a token with the space made visible. -/
def visible : Token → String
  | space => "␣"
  | token => token.text

def listing (tokens : List Token) : String :=
  " ".intercalate (tokens.map visible)

/-- Whether a value that has just been read ends before this token. Any other token begins
a factor that is glued to the value. -/
def endsValue : Token → Bool
  | plus | minus | star | slash | caret | space | closing => true
  | _ => false

/-- Whether a lexeme is a number: digits and points, a digit first, and a numeral. -/
def isNumber (lexeme : Lexeme) : Bool :=
  lexeme.head?.any Char.isDigit && lexeme.all (fun c => c.isDigit || c == '.') &&
    (Numeral.read? lexeme).isSome

def ofLexeme : Lexeme → Token
  | ['+'] => plus
  | ['-'] => minus
  | ['*'] => star
  | ['/'] => slash
  | ['^'] => caret
  | ['('] => opening
  | [')'] => closing
  | [' '] => space
  | ['j'] => imaginaryUnit
  | ['e'] => euler
  | ['e', 'x', 'p'] => exp
  | ['l', 'n'] => ln
  | lexeme =>
      if isNumber lexeme then number (String.ofList lexeme)
      else unknown (String.ofList lexeme)

def ofText (text : String) : List Token :=
  (Lexeme.ofText text).map ofLexeme

end Token

end ComplexCalculator
