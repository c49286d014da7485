import ComplexCalculator.Text.Lowercase

/-!
Lexemes: a text cut into the pieces that mean something together.

At first every character is a lexeme. A fixed sequence of passes then joins neighbours that
are one word and renames what has two spellings; a later pass relies on the earlier ones.
Each pass goes once from left to right and replaces the first lexemes that its rule fits,
without looking back at what it has written. Two of them run until they change nothing.
-/

namespace ComplexCalculator

/-- The characters of one piece of the input. -/
abbrev Lexeme := List Char

namespace Lexeme

/-- What a pass looks for at the front of the remaining lexemes: the lexeme that replaces
them, and how many lexemes are replaced beyond the first. -/
abbrev Rule := List Lexeme → Option (Lexeme × Nat)

/-- Applies a rule wherever it fits, after passing over the next `skipped` lexemes, which a
match has already replaced. -/
def replaceFrom (rule : Rule) : Nat → List Lexeme → List Lexeme
  | _, [] => []
  | skipped + 1, _ :: rest => replaceFrom rule skipped rest
  | 0, lexeme :: rest =>
      match rule (lexeme :: rest) with
      | some (replacement, extra) => replacement :: replaceFrom rule extra rest
      | none => lexeme :: replaceFrom rule 0 rest

def replace (rule : Rule) (lexemes : List Lexeme) : List Lexeme :=
  replaceFrom rule 0 lexemes

/-- Repeats a pass until it changes nothing, at most `rounds` times. -/
def settle (pass : List Lexeme → List Lexeme) : Nat → List Lexeme → List Lexeme
  | 0, lexemes => lexemes
  | rounds + 1, lexemes =>
      let next := pass lexemes
      if next = lexemes then lexemes else settle pass rounds next

/-- Repeats a pass until it changes nothing. A pass that joins lexemes changes fewer times
than there are lexemes. -/
def untilStable (pass : List Lexeme → List Lexeme) (lexemes : List Lexeme) : List Lexeme :=
  settle pass lexemes.length lexemes

/-- Whether a lexeme is a run of digits. -/
def isDigits (lexeme : Lexeme) : Bool :=
  !lexeme.isEmpty && lexeme.all Char.isDigit

def digitsRule : Rule
  | first :: second :: _ =>
      if isDigits first && isDigits second then some (first ++ second, 1) else none
  | _ => none

/-- Digits, a point or a comma, and digits are a decimal, which is written with a point. -/
def decimalRule : Rule
  | whole :: mark :: decimals :: _ =>
      if isDigits whole && (mark == ['.'] || mark == [',']) && isDigits decimals then
        some (whole ++ '.' :: decimals, 2)
      else none
  | _ => none

def caretRule : Rule
  | ['*'] :: ['*'] :: _ => some (['^'], 1)
  | _ => none

def piDigits : Lexeme :=
  ['3', '.', '1', '4', '1', '5', '9', '2', '6', '5', '3', '5', '8', '9', '7', '9', '3']

def piRule : Rule
  | ['π'] :: _ => some (piDigits, 0)
  | ['p'] :: ['i'] :: _ => some (piDigits, 1)
  | _ => none

def imaginaryRule : Rule
  | ['i'] :: _ => some (['j'], 0)
  | _ => none

def minusRule : Rule
  | ['-'] :: ['+'] :: _ => some (['-'], 1)
  | ['+'] :: ['-'] :: _ => some (['-'], 1)
  | _ => none

def plusRule : Rule
  | ['+'] :: ['+'] :: _ => some (['+'], 1)
  | ['-'] :: ['-'] :: _ => some (['+'], 1)
  | _ => none

/-- The letters `exp`, or a power of `e`, name the exponential. -/
def expRule : Rule
  | ['e'] :: ['x'] :: ['p'] :: _ => some (['e', 'x', 'p'], 2)
  | ['e'] :: ['^'] :: _ => some (['e', 'x', 'p'], 1)
  | _ => none

def lnRule : Rule
  | ['l'] :: ['o'] :: ['g'] :: _ => some (['l', 'n'], 2)
  | ['l'] :: ['n'] :: _ => some (['l', 'n'], 1)
  | _ => none

/-- The character that separates nothing: it is dropped from the input. -/
def unitSeparator : Char := '\x1f'

def isFolded (c : Char) : Bool :=
  c == ' ' || c == '\t' || c == '\r' || c == '\n'

/-- Replaces each run of folded white space by one space. `pending` says that the character
before was white space, and its space has been written. -/
def foldSpaces (pending : Bool) : List Char → List Char
  | [] => []
  | c :: rest =>
      if isFolded c then
        if pending then foldSpaces true rest else ' ' :: foldSpaces true rest
      else c :: foldSpaces false rest

/-- The characters that are cut into lexemes: in lower case, without unit separators, and
with runs of white space folded. -/
def prepare (text : List Char) : List Char :=
  foldSpaces false ((Text.lowercase text).filter (· != unitSeparator))

def join (lexemes : List Lexeme) : List Lexeme :=
  let lexemes := untilStable (replace digitsRule) lexemes
  let lexemes := replace decimalRule lexemes
  let lexemes := replace caretRule lexemes
  let lexemes := replace piRule lexemes
  let lexemes := replace imaginaryRule lexemes
  let lexemes := untilStable (fun signs => replace plusRule (replace minusRule signs)) lexemes
  let lexemes := replace expRule lexemes
  replace lnRule lexemes

def ofText (text : String) : List Lexeme :=
  join ((prepare text.toList).map fun c => [c])

end Lexeme

end ComplexCalculator
