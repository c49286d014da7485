import ComplexCalculator.Grammar.Reader

/-!
Reading with a cursor.

The rules once more, as programs that share one cursor over all the tokens: they look at tokens,
move the cursor and call each other. `Program.reading` says what a program reads from the tokens
that are left, given a reader for the rules that it calls. `reading_body` shows that the program of
a rule reads what the rule does.
-/

namespace ComplexCalculator.Grammar

open Decimal (Numeral)

variable {V ε : Type}

section Tails

variable (semantics : Semantics V ε) (reader : Rule V → List Token → Reading V ε)

/-- How a product goes on behind a quotient. -/
def quotientTail (quotient : V) (tokens : List Token) : Reading V ε :=
  match termAfterQuotient tokens with
  | some term => (reader .product term).andThen fun right => compute (semantics.mul quotient right)
  | none => .ok (quotient, skipSpaces tokens)

/-- How a product goes on behind a space. -/
def factorTail (left : V) (tokens : List Token) : Reading V ε :=
  (reader .atom tokens).andThen fun factor rest =>
  (compute (semantics.mul left factor) rest).andThen fun product rest =>
  (reader (.glued product) rest).andThen fun group rest =>
  (reader (.powerTail group) rest).andThen fun group =>
  reader (.productTail group)

/-- How an atom goes on behind the text of a number. -/
def literalTail (text : String) (tokens : List Token) : Reading V ε :=
  match literal text tokens with
  | .ok (numeral, rest) =>
      (compute (semantics.number numeral) rest).andThen fun value => reader (.glued value)
  | .error error => .error (.malformed error)

end Tails

/-- What is still to be done by a rule, one command after another. -/
inductive Program (V ε : Type) where
  | done (value : V)
  | fail (failure : Failure ε)
  /-- Looks at the token that stands so many places ahead of the cursor. -/
  | look (ahead : Nat) (next : Option Token → Program V ε)
  /-- Takes the token at the cursor, if there is one. -/
  | take (next : Option Token → Program V ε)
  /-- Moves the cursor on, but not beyond the end. -/
  | advance (count : Nat) (next : Program V ε)
  /-- Takes tokens as long as they are among these. -/
  | skip (among : Token → Bool) (next : Program V ε)
  /-- The tokens from the cursor on, which an error shows. -/
  | remaining (next : List Token → Program V ε)
  | operate (result : Except ε V) (next : V → Program V ε)
  | call (rule : Rule V) (next : V → Program V ε)

namespace Program

def isSpace : Token → Bool
  | .space => true
  | _ => false

def isSpaceOrPlus : Token → Bool
  | .space | .plus => true
  | _ => false

/-- Whether a value ends before this token, or at the end of the tokens. -/
def ends : Option Token → Bool
  | none => true
  | some token => token.endsValue

def refuse (error : List Token → SyntaxError) : Program V ε :=
  .remaining fun rest => .fail (.malformed (error rest))

def closeGroup (value : V) : Program V ε :=
  .skip isSpace <| .take fun
    | some .closing => .done value
    | some token => refuse (.closingExpected token)
    | none => .fail (.malformed .unclosed)

/-- The value of the outermost group, if it leaves nothing. -/
def closeAll (value : V) : Program V ε :=
  .look 0 fun
    | none => .done value
    | some _ => refuse .strayClosing

/-- The exponent part that three tokens spell. -/
def exponent? : Option Token → Option Token → Option Token → Option String
  | some .euler, some .plus, some (.number exponent) =>
      if exponent.toList.all Char.isDigit then some ("e+" ++ exponent) else none
  | some .euler, some .minus, some (.number exponent) =>
      if exponent.toList.all Char.isDigit then some ("e-" ++ exponent) else none
  | _, _, _ => none

section Body

variable (semantics : Semantics V ε)

def numeral (spelled : String) : Program V ε :=
  match Numeral.read? spelled.toList with
  | some numeral => .operate (semantics.number numeral) fun value => .call (.glued value) .done
  | none => refuse (.unexpected spelled)

def number (text : String) : Program V ε :=
  .look 0 fun first => .look 1 fun second => .look 2 fun third =>
    match exponent? first second third with
    | some exponent => .advance 3 (numeral semantics (text ++ exponent))
    | none => numeral semantics text

def multiply (left : V) : Program V ε :=
  .call .product fun right => .operate (semantics.mul left right) .done

def afterQuotient (quotient : V) : Program V ε :=
  .skip isSpace <| .look 0 fun
    | some .star | some .slash => .take fun _ => multiply semantics quotient
    | front => if ends front then .done quotient else multiply semantics quotient

/-- The program of a rule. -/
def body : Rule V → Program V ε
  | .group => .skip isSpaceOrPlus <| .look 0 fun
      | none => .done semantics.one
      | some .closing => .take fun _ => .done semantics.one
      | some .minus => .call (.sumTail semantics.zero) closeGroup
      | _ => .call .sum closeGroup
  | .sum => .skip isSpace <| .look 0 fun
      | some .plus => .take fun _ => .call .sum .done
      | some .minus => .call (.sumTail semantics.zero) .done
      | _ => .call .product fun left => .call (.sumTail left) .done
  | .sumTail left => .skip isSpace <| .look 0 fun
      | some .plus => .take fun _ => .call .sum fun right =>
          .operate (semantics.add left right) .done
      | some .minus => .take fun _ => .call .product fun right =>
          .operate (semantics.sub left right) fun difference => .call (.sumTail difference) .done
      | _ => .done left
  | .product => .call .power fun left => .call (.productTail left) .done
  | .productTail left => .skip isSpace <| .look 0 fun
      | some .star => .take fun _ => multiply semantics left
      | some .slash => .take fun _ => .call .power fun divisor =>
          .operate (semantics.div left divisor) (afterQuotient semantics)
      | front =>
          if ends front then .done left
          else
            .call .atom fun factor => .operate (semantics.mul left factor) fun product =>
            .call (.glued product) fun group => .call (.powerTail group) fun group =>
            .call (.productTail group) .done
  | .power => .call .atom fun base => .call (.powerTail base) .done
  | .powerTail base => .skip isSpace <| .look 0 fun
      | some .caret => .take fun _ => .call .power fun exponent =>
          .operate (semantics.pow base exponent) .done
      | _ => .done base
  | .atom => .skip isSpace <| .take fun
      | none => .done semantics.one
      | some (.number text) => number semantics text
      | some .exp => .call .atom fun argument => .operate (semantics.exp argument) .done
      | some .ln => .call .atom fun argument => .operate (semantics.ln argument) .done
      | some .euler => .call (.glued semantics.euler) .done
      | some .imaginaryUnit => .call (.glued semantics.imaginaryUnit) .done
      | some .opening => .call .group fun value => .call (.glued value) .done
      | some .minus => .call .atom fun value => .call (.glued (semantics.neg value)) .done
      | some token => refuse (.unexpected token.text)
  | .glued value => .look 0 fun front =>
      if ends front then .done value
      else .call .atom fun factor => .operate (semantics.mul value factor) .done

end Body

/-- What a program reads from the tokens that are left, where `reader` reads the rules that it
calls. -/
@[simp]
def reading (reader : Rule V → List Token → Reading V ε) :
    Program V ε → List Token → Reading V ε
  | done value, tokens => .ok (value, tokens)
  | fail failure, _ => .error failure
  | look ahead next, tokens => (next tokens[ahead]?).reading reader tokens
  | take next, tokens => (next tokens.head?).reading reader tokens.tail
  | advance count next, tokens => next.reading reader (tokens.drop count)
  | skip among next, tokens => next.reading reader (tokens.dropWhile among)
  | remaining next, tokens => (next tokens).reading reader tokens
  | operate result next, tokens =>
      (compute result tokens).andThen fun value rest => (next value).reading reader rest
  | call rule next, tokens =>
      (reader rule tokens).andThen fun value rest => (next value).reading reader rest

section Tokens

theorem dropWhile_isSpace (tokens : List Token) :
    tokens.dropWhile isSpace = skipSpaces tokens := by
  fun_induction skipSpaces tokens with
  | case1 rest ih => exact ih
  | case2 tokens notSpace =>
      cases tokens with
      | nil => rfl
      | cons token rest =>
          cases token with
          | space => exact absurd rfl (notSpace rest)
          | _ => rfl

theorem dropWhile_isSpaceOrPlus (tokens : List Token) :
    tokens.dropWhile isSpaceOrPlus = skipSpacesAndPluses tokens := by
  fun_induction skipSpacesAndPluses tokens with
  | case1 rest ih => exact ih
  | case2 rest ih => exact ih
  | case3 tokens notSpace notPlus =>
      cases tokens with
      | nil => rfl
      | cons token rest =>
          cases token with
          | space => exact absurd rfl (notSpace rest)
          | plus => exact absurd rfl (notPlus rest)
          | _ => rfl

theorem ends_head (tokens : List Token) : ends tokens[0]? = atEnd tokens := by
  cases tokens <;> rfl

/-- Three tokens ahead of the cursor show the exponent part of a number. -/
theorem spelling_eq_exponent? (text : String) (tokens : List Token) :
    spelling text tokens =
      match exponent? tokens[0]? tokens[1]? tokens[2]? with
      | some exponent => (text ++ exponent, tokens.drop 3)
      | none => (text, tokens) := by
  match tokens with
  | [] => rfl
  | [first] => cases first <;> rfl
  | [first, second] => cases first <;> cases second <;> rfl
  | first :: second :: third :: rest =>
      cases first with
      | euler =>
          cases second with
          | plus | minus =>
              cases third with
              | number exponent =>
                  by_cases digits : exponent.toList.all Char.isDigit
                  · simp [spelling, exponent?, digits, String.append_assoc]
                  · simp [spelling, exponent?, digits]
              | _ => rfl
          | _ => rfl
      | _ => rfl

end Tokens

section Reading

variable {semantics : Semantics V ε} {reader : Rule V → List Token → Reading V ε}
variable (tokens : List Token)

@[simp]
theorem andThen_ok (reading : Reading V ε) :
    (reading.andThen fun value rest => .ok (value, rest)) = reading := by
  cases reading <;> rfl

theorem reading_closeGroup (value : V) :
    (closeGroup value : Program V ε).reading reader tokens = Grammar.closeGroup value tokens := by
  simp only [closeGroup, reading, dropWhile_isSpace, Grammar.closeGroup]
  cases skipSpaces tokens with
  | nil => rfl
  | cons token rest => cases token <;> rfl

theorem reading_numeral (spelled : String) :
    (numeral semantics spelled).reading reader tokens =
      match Numeral.read? spelled.toList with
      | some numeral =>
          (compute (semantics.number numeral) tokens).andThen fun value => reader (.glued value)
      | none => .error (.malformed (.unexpected spelled tokens)) := by
  unfold numeral
  split <;> simp [refuse]

theorem reading_number (text : String) :
    (number semantics text).reading reader tokens = literalTail semantics reader text tokens := by
  simp only [number, reading, literalTail, literal, spelling_eq_exponent?]
  cases exponent? tokens[0]? tokens[1]? tokens[2]? with
  | none =>
      simp only [reading_numeral]
      cases Numeral.read? text.toList <;> rfl
  | some exponent =>
      simp only [reading, reading_numeral]
      cases Numeral.read? (text ++ exponent).toList <;> rfl

theorem reading_multiply (left : V) :
    (multiply semantics left).reading reader tokens =
      (reader .product tokens).andThen fun right => compute (semantics.mul left right) := by
  simp only [multiply, reading, andThen_ok]

theorem reading_afterQuotient (quotient : V) :
    (afterQuotient semantics quotient).reading reader tokens =
      quotientTail semantics reader quotient tokens := by
  simp only [afterQuotient, reading, dropWhile_isSpace, quotientTail, termAfterQuotient]
  cases skipSpaces tokens with
  | nil => rfl
  | cons token rest =>
      cases token <;> simp [reading_multiply, ends, atEnd, Token.endsValue]

theorem reading_group :
    (body semantics .group).reading reader tokens = step semantics reader .group tokens := by
  simp only [body, reading, dropWhile_isSpaceOrPlus, step]
  cases skipSpacesAndPluses tokens with
  | nil => rfl
  | cons token rest => cases token <;> simp [reading_closeGroup]

theorem reading_sum :
    (body semantics .sum).reading reader tokens = step semantics reader .sum tokens := by
  simp only [body, reading, dropWhile_isSpace, step]
  cases skipSpaces tokens with
  | nil => simp
  | cons token rest => cases token <;> simp

theorem reading_sumTail (left : V) :
    (body semantics (.sumTail left)).reading reader tokens =
      step semantics reader (.sumTail left) tokens := by
  simp only [body, reading, dropWhile_isSpace, step]
  cases skipSpaces tokens with
  | nil => rfl
  | cons token rest => cases token <;> simp

theorem reading_productTail (left : V) :
    (body semantics (.productTail left)).reading reader tokens =
      step semantics reader (.productTail left) tokens := by
  simp only [body, reading, dropWhile_isSpace, step]
  cases skipSpaces tokens with
  | nil => rfl
  | cons token rest =>
      cases token with
      | slash =>
          simp only [List.getElem?_cons_zero, reading, reading_afterQuotient, List.tail_cons]
          rfl
      | _ => simp [reading_multiply, ends, atEnd, Token.endsValue]

theorem reading_powerTail (base : V) :
    (body semantics (.powerTail base)).reading reader tokens =
      step semantics reader (.powerTail base) tokens := by
  simp only [body, reading, dropWhile_isSpace, step]
  cases skipSpaces tokens with
  | nil => rfl
  | cons token rest => cases token <;> simp

theorem reading_atom :
    (body semantics .atom).reading reader tokens = step semantics reader .atom tokens := by
  simp only [body, reading, dropWhile_isSpace, step]
  cases skipSpaces tokens with
  | nil => rfl
  | cons token rest =>
      cases token with
      | number text => exact reading_number rest text
      | _ => simp [refuse]

theorem reading_glued (value : V) :
    (body semantics (.glued value)).reading reader tokens =
      step semantics reader (.glued value) tokens := by
  simp only [body, reading, ends_head, step]
  split <;> simp

/-- The program of a rule reads what one step of the rule does. -/
theorem reading_body (rule : Rule V) :
    (body semantics rule).reading reader tokens = step semantics reader rule tokens := by
  cases rule with
  | group => exact reading_group tokens
  | sum => exact reading_sum tokens
  | sumTail left => exact reading_sumTail tokens left
  | product => simp only [body, reading, step, andThen_ok]
  | productTail left => exact reading_productTail tokens left
  | power => simp only [body, reading, step, andThen_ok]
  | powerTail base => exact reading_powerTail tokens base
  | atom => exact reading_atom tokens
  | glued value => exact reading_glued tokens value

theorem reading_closeAll (semantics : Semantics V ε) :
    ((call .group closeAll).reading (read semantics) (tokens ++ [.closing])).map Prod.fst =
      parse semantics tokens := by
  simp only [reading, closeAll, parse]
  cases read semantics .group (tokens ++ [.closing]) with
  | error failure => rfl
  | ok result =>
      obtain ⟨value, rest⟩ := result
      cases rest <;> rfl

end Reading

end Program

end ComplexCalculator.Grammar
