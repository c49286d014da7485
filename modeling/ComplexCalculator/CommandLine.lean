import ComplexCalculator.Console
import ComplexCalculator.Text.Terminal

/-!
The command line.

Two options take a value, as `--option value` or `--option=value`, and two are flags; none
may be repeated. A value that stands alone is looked at only when the next option begins or
the arguments end, so an argument that belongs nowhere is reported before it.

Why arguments are refused is reported in styles, and the report is then made plain. So what a
terminal would take as a command is left out of it, also where an argument brings it.
-/

namespace ComplexCalculator.CommandLine

open Text.Terminal

inductive Setting where
  | form
  | digits
deriving DecidableEq, Repr

inductive Flag where
  | console
  | verbose
deriving DecidableEq, Repr

inductive Switch where
  | setting (setting : Setting)
  | flag (flag : Flag)
deriving DecidableEq, Repr

def Switch.name : Switch → String
  | setting .form => "forme"
  | setting .digits => "chiffres"
  | flag .console => "console"
  | flag .verbose => "verbeux"

def Switch.usage : Switch → String
  | setting .form => "--forme <FORME>"
  | setting .digits => "--chiffres <CHIFFRES>"
  | flag .console => "--console"
  | flag .verbose => "--verbeux"

def Switch.ofName? (name : String) : Option Switch :=
  [setting .form, setting .digits, flag .console, flag .verbose].find? fun switch =>
    switch.name = name

inductive CountError where
  | empty
  | notDigit
  | tooLarge
deriving DecidableEq, Repr

def CountError.message : CountError → String
  | empty => "cannot parse integer from empty string"
  | notDigit => "invalid digit found in string"
  | tooLarge => "number too large to fit in target type"

/-- The largest number of digits that can be asked for. -/
def maxCount : Nat := UInt64.size - 1

/-- Appends digits to a count, up to the first one that is wrong. -/
def extendCount (count : Nat) : List Char → Except CountError Nat
  | [] => .ok count
  | c :: rest =>
      if c.isDigit then
        let count := 10 * count + (c.toNat - '0'.toNat)
        if count ≤ maxCount then extendCount count rest else .error .tooLarge
      else .error .notDigit

/-- Reads a count: digits, with an optional plus in front. -/
def readCount (text : String) : Except CountError Nat :=
  match text.toList with
  | [] => .error .empty
  | ['+'] => .error .notDigit
  | '+' :: rest => extendCount 0 rest
  | digits => extendCount 0 digits

inductive ArgumentError where
  | unknownForm (value : String) (error : UnknownForm)
  | badCount (value : String) (error : CountError)
  | valueMissing (setting : Setting)
  | repeated (switch : Switch)
  /-- An argument that is neither an option nor the value of one. -/
  | unexpected (argument : String)
  /-- A flag with a value. -/
  | unexpectedValue (value : String) (flag : Flag)
deriving DecidableEq, Repr

/-- An option as the wrong part of the arguments. -/
def Switch.faulty (switch : Switch) : String := styled .yellow switch.usage

/-- An option as the one that a value was meant for. -/
def Switch.intended (switch : Switch) : String := styled .bold switch.usage

def ArgumentError.message : ArgumentError → String
  | unknownForm value error =>
      "invalid value '" ++ styled .yellow value ++ "' for '" ++
        (Switch.setting .form).intended ++ "': " ++ error.message
  | badCount value error =>
      "invalid value '" ++ styled .yellow value ++ "' for '" ++
        (Switch.setting .digits).intended ++ "': " ++ error.message
  | valueMissing setting =>
      "a value is required for '" ++ (Switch.setting setting).faulty ++
        "' but none was supplied"
  | repeated switch =>
      "the argument '" ++ switch.faulty ++ "' cannot be used multiple times"
  | unexpected argument => "unexpected argument '" ++ styled .yellow argument ++ "' found"
  | unexpectedValue value flag =>
      "unexpected value '" ++ styled .yellow value ++ "' for '" ++
        (Switch.flag flag).intended ++ "' found; no more were expected"

/-- The report of refused arguments. Its end matters to its first line: the name of an
unknown form stands in no style, so a sequence that it leaves unfinished can take the end of
the line with it, up to the style of the hint. -/
def ArgumentError.report (error : ArgumentError) : String :=
  plain (styled .boldRed "error:" ++ " " ++ error.message ++
    "\n\nFor more information, try '" ++ styled .bold "--help" ++ "'.\n")

structure Options where
  console : Bool := false
  verbose : Bool := false
  form : Option Form := none
  digits : Option Nat := none
deriving DecidableEq, Repr

namespace Options

def settings (options : Options) : Settings :=
  { form := options.form.getD .pretty, digits := options.digits.getD 6 }

def raise (options : Options) : Flag → Except ArgumentError Options
  | .console =>
      if options.console then .error (.repeated (.flag .console))
      else .ok { options with console := true }
  | .verbose =>
      if options.verbose then .error (.repeated (.flag .verbose))
      else .ok { options with verbose := true }

def set (options : Options) (value : String) : Setting → Except ArgumentError Options
  | .form =>
      if options.form.isSome then .error (.repeated (.setting .form))
      else match Form.ofName value with
        | .ok form => .ok { options with form := some form }
        | .error error => .error (.unknownForm value error)
  | .digits =>
      if options.digits.isSome then .error (.repeated (.setting .digits))
      else match readCount value with
        | .ok digits => .ok { options with digits := some digits }
        | .error error => .error (.badCount value error)

end Options

/-- The option that was begun last. -/
inductive Pending where
  | none
  /-- It has no value yet. -/
  | awaiting (setting : Setting)
  | holding (setting : Setting) (value : String)
deriving DecidableEq, Repr

def Pending.complete (options : Options) : Pending → Except ArgumentError Options
  | none => .ok options
  | awaiting setting => .error (.valueMissing setting)
  | holding setting value => options.set value setting

inductive Argument where
  | separator
  | long (name : String) (value : Option String)
  | short (letter : Char)
  | plain
deriving DecidableEq, Repr

/-- The shape of an argument. A long option ends at its first equals sign. -/
def Argument.ofText (text : String) : Argument :=
  match text.toList with
  | ['-', '-'] => separator
  | '-' :: '-' :: rest =>
      let name := String.ofList (rest.takeWhile (· != '='))
      match rest.dropWhile (· != '=') with
      | [] => long name none
      | _ :: value => long name (some (String.ofList value))
  | '-' :: letter :: _ => short letter
  | _ => plain

def readArguments (options : Options) (pending : Pending) :
    List String → Except ArgumentError Options
  | [] => pending.complete options
  | text :: rest =>
      match Argument.ofText text with
      | .separator =>
          match rest with
          | [] => pending.complete options
          | argument :: _ => .error (.unexpected argument)
      | .long name value =>
          match Switch.ofName? name, value with
          | some (.setting setting), some value => do
              let options ← pending.complete options
              readArguments (← options.set value setting) .none rest
          | some (.setting setting), none => do
              readArguments (← pending.complete options) (.awaiting setting) rest
          | some (.flag flag), none => do
              let options ← pending.complete options
              readArguments (← options.raise flag) .none rest
          | some (.flag flag), some value => .error (.unexpectedValue value flag)
          | none, _ => .error (.unexpected ("--" ++ name))
      | .short letter => .error (.unexpected (String.ofList ['-', letter]))
      | .plain =>
          match pending with
          | .awaiting setting => readArguments options (.holding setting text) rest
          | _ => .error (.unexpected text)

def Options.ofArguments (arguments : List String) : Except ArgumentError Options :=
  readArguments {} .none arguments

/-- What a run of the program leaves behind. -/
structure Outcome where
  exitCode : Nat
  output : String
  /-- The first line of the error, empty when there is none. -/
  error : String
deriving DecidableEq, Repr

/-- The first line of a text. A line ends with a line feed, or with a carriage return and a
line feed. -/
def firstLine (text : String) : String :=
  let line := text.toList.takeWhile (· != '\n')
  String.ofList (if line.getLast? = some '\r' then line.dropLast else line)

def evaluate (options : Options) (input : ByteArray) : Outcome :=
  match Console.run options.settings input with
  | .ok line => ⟨0, line, ""⟩
  | .error error => ⟨1, "", firstLine ("erreur : " ++ error.message)⟩

def refuse (error : ArgumentError) : Outcome :=
  ⟨2, "", firstLine error.report⟩

/-- The outcome of a run with these arguments and this input. Without `--console` there is
nothing to evaluate. -/
def run (arguments : List String) (input : ByteArray) : Outcome :=
  match Options.ofArguments arguments with
  | .error error => refuse error
  | .ok options => if options.console then evaluate options input else ⟨0, "", ""⟩

end ComplexCalculator.CommandLine
