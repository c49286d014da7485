/-!
Texts for a terminal, and what is left of them elsewhere.

A terminal takes some characters as commands: controls, and the sequences that the escape
character begins. Where there is no terminal a text is kept plain, without any of them. White
space is the one thing that shows even inside a sequence. The text right behind it shows as
well, and the sequence goes on at the next character that never shows.
-/

namespace ComplexCalculator.Text.Terminal

/-- How a part of a text stands out. -/
inductive Style where
  | bold
  | boldRed
  | yellow
deriving DecidableEq, Repr

/-- The parameters of the sequence that begins a style. -/
def Style.parameters : Style → String
  | bold => "1"
  | boldRed => "1;31"
  | yellow => "33"

/-- The text in a style. The sequence that ends it ends all styles. -/
def styled (style : Style) (text : String) : String :=
  "\x1b[" ++ style.parameters ++ "m" ++ text ++ "\x1b[0m"

/-- Which sequence is under way. -/
inductive Phase where
  | ground
  | escape
  /-- An escape sequence with intermediate characters. -/
  | escapeIntermediate
  /-- A control sequence, begun by a bracket. -/
  | control
  /-- A device control, begun by the letter `P`. -/
  | device
  /-- A device control with parameters. -/
  | deviceParameter
  /-- A device control with intermediate characters. -/
  | deviceIntermediate
  /-- A string that lasts until its terminator. -/
  | string
  /-- A command of the operating system, a string that a bell ends. -/
  | command
deriving DecidableEq, Repr

def between (first last : Char) (c : Char) : Bool :=
  decide (first ≤ c) && decide (c ≤ last)

/-- The characters that stand between the start of a sequence and its final character. -/
def isIntermediate (c : Char) : Bool := between ' ' '/' c

def isParameter (c : Char) : Bool := between '0' '?' c

def isFinal (c : Char) : Bool := between '@' '~' c

/-- Whether the byte 0x9c, which terminates a string, is part of `c` in UTF-8. -/
def holdsTerminator (c : Char) : Bool := (String.utf8EncodeChar c).contains 0x9c

/-- The white space that shows inside a sequence. -/
def isSpacing (c : Char) : Bool :=
  c == '\t' || c == '\n' || c == '\x0c' || c == '\r'

namespace Phase

def shows (phase : Phase) (c : Char) : Bool :=
  match phase with
  | ground => isSpacing c || between ' ' '~' c || decide ('\x7f' < c)
  | escape | escapeIntermediate | control => isSpacing c
  | _ => false

/-- The phase after a character that does not show. Two controls give up any sequence, and
the escape character begins a new one. -/
def next (phase : Phase) (c : Char) : Phase :=
  if c = '\x18' ∨ c = '\x1a' then ground
  else if c = '\x1b' then escape
  else match phase with
    | ground => ground
    | escape =>
        if c = '[' then control
        else if c = ']' then command
        else if c = 'P' then device
        else if c = 'X' ∨ c = '^' ∨ c = '_' then string
        else if isIntermediate c then escapeIntermediate
        else if isParameter c || isFinal c then ground
        else escape
    | escapeIntermediate => if isParameter c || isFinal c then ground else escapeIntermediate
    | control => if isFinal c then ground else control
    | device =>
        if isIntermediate c then deviceIntermediate
        else if isParameter c then deviceParameter
        else if isFinal c then string
        else device
    | deviceParameter =>
        if isIntermediate c then deviceIntermediate
        else if between '<' '?' c || isFinal c then string
        else deviceParameter
    | deviceIntermediate => if isParameter c || isFinal c then string else deviceIntermediate
    | string => if holdsTerminator c then ground else string
    | command => if c = '\x07' then ground else command

end Phase

/-- The characters that show. `showing` says that the character before did, so that the next
one is judged as outside of any sequence. Only a character beyond ASCII that shows ends the
sequence that is under way. -/
def plainFrom (phase : Phase) (showing : Bool) : List Char → List Char
  | [] => []
  | c :: rest =>
      if (if showing then Phase.ground else phase).shows c then
        c :: plainFrom (if c.toNat < 128 then phase else .ground) true rest
      else plainFrom (phase.next c) false rest

/-- The text without the characters that a terminal takes as commands. -/
def plain (text : String) : String :=
  String.ofList (plainFrom .ground false text.toList)

end ComplexCalculator.Text.Terminal
