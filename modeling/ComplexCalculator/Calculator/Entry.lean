import ComplexCalculator.Text.Characters

namespace ComplexCalculator.Entry

/-- How an inserted text behaves towards what stands before it. -/
inductive Kind where
  | digit
  /-- A constant, written by a letter. -/
  | word
  /-- The name of a function with its opening parenthesis. -/
  | function
  | operator
  | opening
  | closing
deriving DecidableEq, Repr

def stripSpaces (entry : List Char) : List Char :=
  (entry.reverse.dropWhile (· == ' ')).reverse

/-- Whether the last character that is not white space ends an operand: a letter or a digit
of ASCII, or a closing parenthesis. -/
def endsOperand (entry : List Char) : Bool :=
  (entry.reverse.find? fun c => !Text.isBlank c).any fun c => c.isAlphanum || c == ')'

def insertChars (kind : Kind) (text entry : List Char) : List Char :=
  match kind with
  | .digit => entry ++ text
  | .word =>
      -- two letters side by side would make another word
      if text.head?.any Char.isAlpha && entry.getLast?.any Char.isAlpha then
        entry ++ ' ' :: text
      else entry ++ text
  | .function | .opening =>
      if endsOperand entry then stripSpaces entry ++ ' ' :: text else entry ++ text
  | .operator =>
      let entry := stripSpaces entry
      (if entry.isEmpty then [] else entry ++ [' ']) ++ text ++ [' ']
  | .closing => stripSpaces entry ++ text

def wholeSymbols : List (List Char) :=
  [['e', 'x', 'p', '('], ['l', 'n', '('], ['p', 'i'], ['π']]

/-- Drops the last symbol of an entry without spaces at its end. -/
def dropSymbol (entry : List Char) : List Char :=
  match wholeSymbols.find? fun symbol => symbol.isSuffixOf entry with
  | some symbol => entry.take (entry.length - symbol.length)
  | none => entry.dropLast

/-- Deletes the last symbol, and the spaces behind and before it. -/
def deleteChars (entry : List Char) : List Char :=
  stripSpaces (dropSymbol (stripSpaces entry))

def insert (kind : Kind) (text entry : String) : String :=
  String.ofList (insertChars kind text.toList entry.toList)

def delete (entry : String) : String :=
  String.ofList (deleteChars entry.toList)

end ComplexCalculator.Entry
