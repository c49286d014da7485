import ComplexCalculator.Token

/-!
The grammar of expressions, as one step of a reader.

A rule of the grammar reads the front of the tokens and leaves the rest. Rules whose name
ends in `Tail` continue a value that has already been read, and `glued` continues it with
what stands directly behind it. `step` says what each rule does, given a reader for the
rules that it calls; it is not recursive, and what it builds is left to a `Semantics`.

Levels, from the outside: group, sum, product, power, atom. A sum of two terms goes on to
the right after a plus and to the left after a minus, and whatever operator follows a
quotient, the quotient multiplies what stands behind it.
-/

namespace ComplexCalculator

open Decimal (Numeral)

inductive SyntaxError where
  /-- A token that cannot stand where it does, and the tokens behind it. -/
  | unexpected (text : String) (rest : List Token)
  /-- The whole expression is closed before its end. -/
  | strayClosing (rest : List Token)
  /-- A group is not closed. -/
  | unclosed
  /-- A group goes on with something else than its end. -/
  | closingExpected (found : Token) (rest : List Token)
deriving DecidableEq, Repr

/-- Why reading gives no value: the tokens are malformed, or an operation has no result. -/
inductive Failure (ε : Type) where
  | malformed (error : SyntaxError)
  | arithmetic (error : ε)
deriving DecidableEq

namespace Grammar

/-- What the constructs of the grammar stand for: constants, and operations that may fail. -/
structure Semantics (V ε : Type) where
  number : Numeral → Except ε V
  euler : V
  imaginaryUnit : V
  zero : V
  one : V
  add : V → V → Except ε V
  sub : V → V → Except ε V
  mul : V → V → Except ε V
  div : V → V → Except ε V
  pow : V → V → Except ε V
  exp : V → Except ε V
  ln : V → Except ε V
  neg : V → V

inductive Rule (V : Type) where
  /-- What stands behind an opening parenthesis, with the closing one. -/
  | group
  | sum
  | sumTail (left : V)
  | product
  | productTail (left : V)
  | power
  | powerTail (base : V)
  /-- A number, a constant, a function with its argument, a group or a negated atom, with
  all that is glued to it. -/
  | atom
  /-- The atom that stands directly behind a value, if there is one, as a factor. -/
  | glued (value : V)

variable {V ε : Type}

/-- What reading a rule gives: a value and the tokens left, or a failure. -/
abbrev Reading (V ε : Type) := Except (Failure ε) (V × List Token)

def Reading.andThen (reading : Reading V ε) (next : V → List Token → Reading V ε) :
    Reading V ε :=
  match reading with
  | .ok (value, rest) => next value rest
  | .error failure => .error failure

/-- The result of an operation, before the tokens left. -/
def compute (result : Except ε V) (rest : List Token) : Reading V ε :=
  match result with
  | .ok value => .ok (value, rest)
  | .error error => .error (.arithmetic error)

def skipSpaces : List Token → List Token
  | .space :: rest => skipSpaces rest
  | rest => rest

def skipSpacesAndPluses : List Token → List Token
  | .space :: rest => skipSpacesAndPluses rest
  | .plus :: rest => skipSpacesAndPluses rest
  | rest => rest

def closeGroup (value : V) (tokens : List Token) : Reading V ε :=
  match skipSpaces tokens with
  | .closing :: rest => .ok (value, rest)
  | token :: rest => .error (.malformed (.closingExpected token rest))
  | [] => .error (.malformed .unclosed)

/-- The spelling of the literal that begins with the number `text`, and the tokens behind
it. The constant `e`, a sign and a whole number directly behind the number are its
exponent. -/
def spelling (text : String) : List Token → String × List Token
  | .euler :: .plus :: .number exponent :: rest =>
      if exponent.toList.all Char.isDigit then (text ++ "e+" ++ exponent, rest)
      else (text, .euler :: .plus :: .number exponent :: rest)
  | .euler :: .minus :: .number exponent :: rest =>
      if exponent.toList.all Char.isDigit then (text ++ "e-" ++ exponent, rest)
      else (text, .euler :: .minus :: .number exponent :: rest)
  | rest => (text, rest)

/-- The literal that begins with the number `text`, and the tokens behind it. -/
def literal (text : String) (tokens : List Token) :
    Except SyntaxError (Numeral × List Token) :=
  let (spelled, rest) := spelling text tokens
  match Numeral.read? spelled.toList with
  | some numeral => .ok (numeral, rest)
  | none => .error (.unexpected spelled rest)

/-- Whether a value ends here: at the end of the tokens, or before a token that ends it. -/
def atEnd : List Token → Bool
  | [] => true
  | token :: _ => token.endsValue

/-- The tokens of the term that a quotient multiplies, if one follows it. The operator in
front of the term, a star or a slash, is dropped. -/
def termAfterQuotient (tokens : List Token) : Option (List Token) :=
  match skipSpaces tokens with
  | .star :: rest => some rest
  | .slash :: rest => some rest
  | rest => if atEnd rest then none else some rest

/-- What one rule does, where `read` reads the rules that it calls. -/
def step (semantics : Semantics V ε) (read : Rule V → List Token → Reading V ε) :
    Rule V → List Token → Reading V ε
  | .group, tokens =>
      match skipSpacesAndPluses tokens with
      | [] => .ok (semantics.one, [])
      | .closing :: rest => .ok (semantics.one, rest)
      -- a minus sign that opens a group is subtracted from zero
      | .minus :: rest =>
          (read (.sumTail semantics.zero) (.minus :: rest)).andThen closeGroup
      | rest => (read .sum rest).andThen closeGroup
  | .sum, tokens =>
      match skipSpaces tokens with
      | .plus :: rest => read .sum rest
      | .minus :: rest => read (.sumTail semantics.zero) (.minus :: rest)
      | rest => (read .product rest).andThen fun left => read (.sumTail left)
  | .sumTail left, tokens =>
      match skipSpaces tokens with
      | .plus :: rest =>
          (read .sum rest).andThen fun right => compute (semantics.add left right)
      | .minus :: rest =>
          (read .product rest).andThen fun right rest =>
          (compute (semantics.sub left right) rest).andThen fun difference =>
          read (.sumTail difference)
      | rest => .ok (left, rest)
  | .product, tokens =>
      (read .power tokens).andThen fun left => read (.productTail left)
  | .productTail left, tokens =>
      match skipSpaces tokens with
      | .star :: rest =>
          (read .product rest).andThen fun right => compute (semantics.mul left right)
      | .slash :: rest =>
          (read .power rest).andThen fun divisor rest =>
          (compute (semantics.div left divisor) rest).andThen fun quotient rest =>
          match termAfterQuotient rest with
          | some term =>
              (read .product term).andThen fun right => compute (semantics.mul quotient right)
          | none => .ok (quotient, skipSpaces rest)
      | rest =>
          if atEnd rest then .ok (left, rest)
          -- a factor behind a space: the product goes on as if it stood in parentheses
          else
            (read .atom rest).andThen fun factor rest =>
            (compute (semantics.mul left factor) rest).andThen fun product rest =>
            (read (.glued product) rest).andThen fun group rest =>
            (read (.powerTail group) rest).andThen fun group =>
            read (.productTail group)
  | .power, tokens =>
      (read .atom tokens).andThen fun base => read (.powerTail base)
  | .powerTail base, tokens =>
      match skipSpaces tokens with
      | .caret :: rest =>
          (read .power rest).andThen fun exponent => compute (semantics.pow base exponent)
      | rest => .ok (base, rest)
  | .atom, tokens =>
      match skipSpaces tokens with
      | [] => .ok (semantics.one, [])
      | .number text :: rest =>
          match literal text rest with
          | .ok (numeral, rest) =>
              (compute (semantics.number numeral) rest).andThen fun value =>
              read (.glued value)
          | .error error => .error (.malformed error)
      | .exp :: rest =>
          (read .atom rest).andThen fun argument => compute (semantics.exp argument)
      | .ln :: rest =>
          (read .atom rest).andThen fun argument => compute (semantics.ln argument)
      | .euler :: rest => read (.glued semantics.euler) rest
      | .imaginaryUnit :: rest => read (.glued semantics.imaginaryUnit) rest
      | .opening :: rest => (read .group rest).andThen fun value => read (.glued value)
      | .minus :: rest =>
          (read .atom rest).andThen fun value => read (.glued (semantics.neg value))
      | token :: rest => .error (.malformed (.unexpected token.text rest))
  | .glued value, tokens =>
      if atEnd tokens then .ok (value, tokens)
      else (read .atom tokens).andThen fun factor => compute (semantics.mul value factor)

end Grammar

end ComplexCalculator
