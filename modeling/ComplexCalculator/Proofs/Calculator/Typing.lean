import Mathlib
import ComplexCalculator.Proofs.Calculator.Deletion
import ComplexCalculator.Proofs.Grammar.Spacing
import ComplexCalculator.Proofs.Lexeme.Written

namespace ComplexCalculator

open Lexeme (scan wordPatterns)

namespace Key

/-- The tokens that a key stands for by itself. -/
def tokens : Key → List Token
  | digit value => [.number (String.ofList [Nat.digitChar value])]
  | point => [.unknown "."]
  | padUnit | imaginaryUnit => [.imaginaryUnit]
  | pi => [.number "3.141592653589793"]
  | euler => [.euler]
  | exp => [.exp, .opening]
  | ln => [.ln, .opening]
  | opening => [.opening]
  | closing => [.closing]
  | plus => [.plus]
  | minus => [.minus]
  | star => [.star]
  | slash => [.slash]
  | caret => [.caret]

/-- Whether a key writes a part of a number. -/
def isNumeral : Key → Bool
  | digit _ | point => true
  | _ => false

/-- The texts of keys in a row. -/
def textOf (keys : List Key) : List Char := keys.flatMap fun key => key.text.toList

/-- The tokens of keys in a row: those of each key, but digits and points that follow one
another are read together. -/
def tokensOf : List Key → List Token
  | [] => []
  | key :: rest =>
      if key.isNumeral then
        Token.ofText (String.ofList (textOf (key :: rest.takeWhile isNumeral))) ++
          tokensOf (rest.dropWhile isNumeral)
      else key.tokens ++ tokensOf rest
termination_by keys => keys.length
decreasing_by
  · exact Nat.lt_succ_of_le (List.dropWhile_suffix isNumeral).length_le
  · exact Nat.lt_succ_self _

/-- Whether a space stands between the texts of two keys. -/
def parted (previous key : Key) : Bool :=
  match key.kind with
  | .digit => previous.kind == .operator
  | .word => previous.kind == .operator ||
      key.text.toList.head?.any Char.isAlpha && previous.text.toList.getLast?.any Char.isAlpha
  | .function | .opening => previous.kind == .operator ||
      previous.text.toList.getLast?.any fun c => c.isAlphanum || c == ')'
  | .operator => true
  | .closing => false

def gap (previous key : Key) : List Char := if previous.parted key then [' '] else []

/-- The space behind an operator. -/
def trail (key : Key) : List Char := if key.kind == .operator then [' '] else []

/-- What the keys write behind the text of another key. -/
def layout (previous : Key) : List Key → List Char
  | [] => previous.trail
  | key :: rest => previous.gap key ++ key.text.toList ++ layout key rest

end Key

namespace Entry

open Key

variable {front : List Char}

theorem stripSpaces_trail (front : List Char) (key : Key) :
    stripSpaces (front ++ key.text.toList ++ key.trail) = front ++ key.text.toList := by
  have kept := stripSpaces_append key.text_ne_nil key.visible_text front
  unfold trail
  split
  · rw [stripSpaces_concat_space, kept]
  · rw [List.append_nil, kept]

theorem isBlank_text (key : Key) : ∀ c ∈ key.text.toList, Text.isBlank c = false := by
  intro c member
  rcases key.mem_text c member with rfl | ⟨low, high⟩
  · decide +kernel
  · exact isBlank_of_visible low high

theorem endsOperand_trail (front : List Char) (key : Key) :
    endsOperand (front ++ key.text.toList ++ key.trail) =
      key.text.toList.getLast?.any fun c => c.isAlphanum || c == ')' := by
  obtain ⟨before, last, split⟩ :=
    (List.eq_nil_or_concat key.text.toList).resolve_left key.text_ne_nil
  have shown : Text.isBlank last = false := isBlank_text key last (by simp [split])
  have blank : Text.isBlank ' ' = true := by decide +kernel
  unfold trail
  split <;> simp [endsOperand, split, shown, blank]

theorem getLast?_trail (front : List Char) (key : Key) :
    (front ++ key.text.toList ++ key.trail).getLast?.any Char.isAlpha =
      key.text.toList.getLast?.any Char.isAlpha := by
  cases key with
  | digit value => simp [text, trail, kind]
  | _ => simp [text, trail, kind]

theorem not_operand_of_operator {key : Key} (operator : key.kind = .operator) :
    (key.text.toList.getLast?.any fun c => c.isAlphanum || c == ')') = false ∧
      key.text.toList.getLast?.any Char.isAlpha = false := by
  cases key <;> first | contradiction | decide

/-- An inserted key stands behind the last one, parted from it where it has to be. -/
theorem insertChars_behind (front : List Char) (previous key : Key) :
    insertChars key.kind key.text.toList (front ++ previous.text.toList ++ previous.trail) =
      front ++ previous.text.toList ++ previous.gap key ++ key.text.toList ++ key.trail := by
  have stripped := stripSpaces_trail front previous
  have operand := endsOperand_trail front previous
  have letter := getLast?_trail front previous
  have nonempty : front ++ previous.text.toList ≠ [] := by simp [previous.text_ne_nil]
  generalize front ++ previous.text.toList = before at *
  by_cases operator : previous.kind = .operator
  · obtain ⟨noOperand, noLetter⟩ := not_operand_of_operator operator
    cases kind : key.kind <;> simp_all [insertChars, gap, parted, trail]
  · have nothing : previous.trail = [] := by simp [trail, operator]
    rw [nothing, List.append_nil] at stripped operand letter ⊢
    cases kind : key.kind with
    | word | function | opening =>
        simp only [insertChars, gap, parted, trail, kind, stripped, operand, letter]
        split <;> simp_all
    | _ => simp [insertChars, gap, parted, trail, kind, stripped, operator, nonempty]

theorem insertChars_nil (key : Key) :
    insertChars key.kind key.text.toList [] = key.text.toList ++ key.trail := by
  cases kind : key.kind <;> simp [insertChars, trail, kind, stripSpaces, endsOperand]

theorem typeKeys_behind (front : List Char) (previous : Key) (keys : List Key) :
    typeKeys keys (front ++ previous.text.toList ++ previous.trail) =
      front ++ previous.text.toList ++ layout previous keys := by
  induction keys generalizing front previous with
  | nil => rfl
  | cons key keys ih =>
      have rest := ih (front ++ previous.text.toList ++ previous.gap key) key
      rw [← insertChars_behind] at rest
      simpa [typeKeys, layout] using rest

theorem typeKeys_nil (key : Key) (keys : List Key) :
    typeKeys (key :: keys) [] = key.text.toList ++ layout key keys := by
  have rest := typeKeys_behind [] key keys
  rw [List.nil_append, ← insertChars_nil] at rest
  exact rest

end Entry

namespace Key

open Lexeme

theorem plain_text (key : Key) : ∀ c ∈ key.text.toList, Plain c := by
  cases key with
  | digit value =>
      have digits : ∀ value : Fin 10, (Nat.digitChar value).isDigit = true := by decide
      intro c member
      obtain rfl : c = Nat.digitChar value := by simpa [text] using member
      exact plain_digit (digits value)
  | pi =>
      intro c member
      obtain rfl : c = 'π' := by simpa [text] using member
      exact plain_pi
  | _ =>
      intro c member
      simp only [text, String.reduceToList] at member
      fin_cases member <;> exact plain_ascii (by decide) (by decide) (by decide) (by decide)

theorem foldSpaces_text (key : Key) (pending : Bool) (rest : List Char) :
    foldSpaces pending (key.text.toList ++ rest) = key.text.toList ++ foldSpaces false rest := by
  have unfolded : ∀ c ∈ key.text.toList, isFolded c = false :=
    fun c member => (key.plain_text c member).unfolded
  have nonempty := key.text_ne_nil
  generalize key.text.toList = text at unfolded nonempty
  induction text generalizing pending with
  | nil => exact absurd rfl nonempty
  | cons c more ih =>
      have first := unfolded c List.mem_cons_self
      have others := fun d member => unfolded d (List.mem_cons_of_mem c member)
      cases more with
      | nil => simp [foldSpaces, first]
      | cons d more =>
          rw [List.cons_append, foldSpaces, if_neg (by simp [first]),
            ih false others (List.cons_ne_nil d more)]
          rfl

theorem foldSpaces_layout (previous : Key) (keys : List Key) :
    foldSpaces false (layout previous keys) = layout previous keys := by
  induction keys generalizing previous with
  | nil =>
      simp only [layout, trail]
      split <;> rfl
  | cons key keys ih =>
      simp only [layout, gap]
      split
      · have space (text : List Char) :
            foldSpaces false (' ' :: text) = ' ' :: foldSpaces true text := rfl
        simp only [List.cons_append, List.nil_append, space, foldSpaces_text, ih]
      · simp only [List.nil_append, foldSpaces_text, ih]

theorem plain_layout (previous : Key) (keys : List Key) :
    ∀ c ∈ layout previous keys, c = ' ' ∨ Plain c := by
  induction keys generalizing previous with
  | nil =>
      simp only [layout, trail]
      split <;> simp
  | cons key keys ih =>
      intro c member
      simp only [layout, gap, List.mem_append] at member
      rcases member with (space | written) | later
      · split at space <;> simp_all
      · exact .inr (key.plain_text c written)
      · exact ih key c later

/-- The entry is prepared already: its white space is single spaces. -/
theorem prepare_layout (key : Key) (keys : List Key) :
    prepare (key.text.toList ++ layout key keys) = key.text.toList ++ layout key keys := by
  have plain : ∀ c ∈ key.text.toList ++ layout key keys, c = ' ' ∨ Plain c := by
    intro c member
    rcases List.mem_append.mp member with first | later
    · exact .inr (key.plain_text c first)
    · exact plain_layout key keys c later
  rw [prepare_of_lower, foldSpaces_text, foldSpaces_layout]
  · intro c member
    rcases plain c member with rfl | plain
    · exact fun _ _ => by rw [Text.lowercaseAt, if_pos (by decide)]; rfl
    · exact plain.lower
  · intro c member
    rcases plain c member with rfl | plain
    · rfl
    · exact plain.kept

/-- What stands directly behind a key does not change its reading. -/
def Apart (rest : List Char) : Prop := ∀ c ∈ rest.head?, c ∉ ['x', '^', '*', '+', '-']

theorem scan_euler {rest : List Char} (apart : Apart rest) :
    scan wordPatterns ('e' :: rest) = ['e'] :: scan wordPatterns rest := by
  refine scan_cons_of_next (next_of_no_fit fun pattern member => ?_)
  have misses : expPattern.fits 'e' rest = none := by
    refine Option.eq_none_iff_forall_not_mem.mpr fun (lexeme, behind) fits => ?_
    obtain ⟨-, -, ⟨rfl, -⟩ | rfl | rfl⟩ := expPattern_fits.mp fits <;> simpa using apart _ rfl
  simp only [wordPatterns, List.mem_cons, List.not_mem_nil, or_false] at member
  rcases member with rfl | rfl | rfl | rfl | rfl | rfl | rfl
  all_goals first | exact misses | rfl

theorem scan_star {rest : List Char} (apart : Apart rest) :
    scan wordPatterns ('*' :: rest) = ['*'] :: scan wordPatterns rest := by
  refine scan_cons_of_next (next_of_no_fit fun pattern member => ?_)
  have misses : caretPattern.fits '*' rest = none := by
    refine Option.eq_none_iff_forall_not_mem.mpr fun (lexeme, behind) fits => ?_
    obtain ⟨-, rfl, -⟩ := caretPattern_fits.mp fits
    simpa using apart _ rfl
  simp only [wordPatterns, List.mem_cons, List.not_mem_nil, or_false] at member
  rcases member with rfl | rfl | rfl | rfl | rfl | rfl | rfl
  all_goals first | exact misses | rfl

theorem tokens_text {key : Key} (single : key.isNumeral = false) {rest : List Char}
    (apart : Apart rest) :
    (scan wordPatterns (key.text.toList ++ rest)).map Token.ofLexeme =
      key.tokens ++ (scan wordPatterns rest).map Token.ofLexeme := by
  have alone : ∀ c ∈ rest.head?, c ≠ '+' ∧ c ≠ '-' := by
    intro c first
    have other := apart c first
    simp only [List.mem_cons, not_or] at other
    exact ⟨other.2.2.2.1, other.2.2.2.2.1⟩
  cases key with
  | digit | point => contradiction
  | padUnit | imaginaryUnit => exact congrArg (List.map Token.ofLexeme) (scan_unit rest)
  | pi => exact congrArg (List.map Token.ofLexeme) (scan_pi rest)
  | euler => exact congrArg (List.map Token.ofLexeme) (scan_euler apart)
  | star => exact congrArg (List.map Token.ofLexeme) (scan_star apart)
  | plus => exact congrArg (List.map Token.ofLexeme) (scan_sign false alone)
  | minus => exact congrArg (List.map Token.ofLexeme) (scan_sign true alone)
  | exp =>
      have name : scan wordPatterns ('e' :: 'x' :: 'p' :: '(' :: rest) =
          ['e', 'x', 'p'] :: scan wordPatterns ('(' :: rest) := scan_cons_of_next rfl
      rw [scan_parenthesis (.inl rfl)] at name
      exact congrArg (List.map Token.ofLexeme) name
  | ln =>
      have name : scan wordPatterns ('l' :: 'n' :: '(' :: rest) =
          ['l', 'n'] :: scan wordPatterns ('(' :: rest) := scan_cons_of_next rfl
      rw [scan_parenthesis (.inl rfl)] at name
      exact congrArg (List.map Token.ofLexeme) name
  | opening | closing | slash | caret =>
      exact congrArg (List.map Token.ofLexeme) (scan_cons_plain (by decide))


end Key

namespace Lexeme

variable {tail : List Char}

theorem head?_number (c : Char) (text : List Char) : (number c text).1.head? = some c := by
  unfold number
  split
  · split <;> rfl
  · rfl

/-- A character of a number. -/
def IsNumeral (c : Char) : Prop := c.isDigit = true ∨ c = '.'

/-- Digits and points are cut in the same way whatever follows them but digits and marks. -/
theorem scan_block (block : List Char) (numerals : ∀ c ∈ block, IsNumeral c)
    (ends : EndsNumber tail) :
    scan wordPatterns (block ++ tail) = scan wordPatterns block ++ scan wordPatterns tail ∧
      ∀ lexeme ∈ scan wordPatterns block, ∃ c ∈ lexeme.head?, IsNumeral c := by
  induction size : block.length using Nat.strongRecOn generalizing block with
  | ind size ih =>
      subst size
      cases block with
      | nil => simp
      | cons c rest =>
          have others : ∀ d ∈ rest, IsNumeral d :=
            fun d member => numerals d (List.mem_cons_of_mem c member)
          rcases numerals c List.mem_cons_self with digit | rfl
          · have suffix := number_suffix c rest
            obtain ⟨appended, begin⟩ := ih _ (Nat.lt_succ_of_le suffix.length_le) _
              (fun d member => others d (suffix.subset member)) rfl
            have first : next wordPatterns c (rest ++ tail) = number c (rest ++ tail) :=
              next_digit digit
            rw [number_append ends] at first
            rw [List.cons_append, scan_cons_of_next first, scan_cons_of_next (next_digit digit),
              appended]
            refine ⟨rfl, fun lexeme member => ?_⟩
            rcases List.mem_cons.mp member with rfl | member
            · exact ⟨c, head?_number c rest, .inl digit⟩
            · exact begin lexeme member
          · obtain ⟨appended, begin⟩ := ih _ (Nat.lt_succ_self _) rest others rfl
            rw [List.cons_append, scan_cons_plain (by decide), scan_cons_plain (by decide),
              appended]
            refine ⟨rfl, fun lexeme member => ?_⟩
            rcases List.mem_cons.mp member with rfl | member
            · exact ⟨'.', rfl, .inr rfl⟩
            · exact begin lexeme member

end Lexeme

namespace Token

theorem ofLexeme_of_numeral {lexeme : Lexeme} (numeral : ∃ c ∈ lexeme.head?, Lexeme.IsNumeral c) :
    ofLexeme lexeme ≠ .space ∧ (ofLexeme lexeme).isSign = false := by
  obtain ⟨c, first, numeral⟩ := numeral
  unfold ofLexeme
  split
  case h_13 => split <;> exact ⟨nofun, rfl⟩
  all_goals
    obtain rfl := Option.mem_some.mp first
    rcases numeral with digit | point
    · exact absurd digit (by decide)
    · exact absurd point (by decide)

theorem ofText_of_prepared {text : List Char} (prepared : Lexeme.prepare text = text) :
    ofText (String.ofList text) = cut text := by
  rw [ofText_eq_cut, String.toList_ofList, prepared]

/-- No sign stands directly behind another token: there is a space between them. -/
def SignsApart (tokens : List Token) : Prop :=
  tokens.IsChain fun left right => right.isSign = true → left = .space

theorem signsApart_of_plain {tokens : List Token}
    (plain : ∀ token ∈ tokens, token.isSign = false) : SignsApart tokens := by
  refine List.Pairwise.isChain (List.pairwise_of_forall_mem_list ?_)
  intro _ _ token member sign
  rw [plain token member] at sign
  contradiction

end Token

namespace Key

open Lexeme Token

variable {key : Key} {keys : List Key} {c : Char}

theorem parted_of_operator (previous : Key) (operator : key.kind = .operator) :
    previous.parted key = true := by
  simp [parted, operator]

/-- What the keys write behind a key begins with a space, or with the text of a key that needs
none. -/
theorem head?_layout (first : c ∈ (layout key keys).head?) :
    c = ' ' ∨ ∃ next ∈ keys.head?, next.kind ≠ .operator ∧ c ∈ next.text.toList.head? := by
  cases keys with
  | nil =>
      simp only [layout, trail] at first
      split at first
      · exact .inl (by simpa using first.symm)
      · contradiction
  | cons next keys =>
      simp only [layout, gap] at first
      split at first
      · exact .inl (by simpa using first.symm)
      · rename_i together
        refine .inr ⟨next, rfl, fun operator => together (parted_of_operator key operator), ?_⟩
        obtain ⟨d, more, text⟩ := List.exists_cons_of_ne_nil next.text_ne_nil
        simpa [text] using first

theorem apart_layout (key : Key) (keys : List Key) : Apart (layout key keys) := by
  intro c first
  rcases head?_layout first with rfl | ⟨next, -, other, begins⟩
  · decide
  · cases next with
    | digit value =>
        have digits : ∀ value : Fin 10, Nat.digitChar value ∉ ['x', '^', '*', '+', '-'] := by decide
        obtain rfl : Nat.digitChar value = c := by simpa [text] using begins
        exact digits value
    | _ =>
        first
        | exact absurd rfl other
        | obtain rfl := Option.mem_some.mp begins
          decide

theorem endsNumber_layout (key : Key) (single : ∀ next ∈ keys.head?, next.isNumeral = false) :
    EndsNumber (layout key keys) := by
  intro c first
  rcases head?_layout first with rfl | ⟨next, member, -, begins⟩
  · decide
  · have other := single next member
    cases next with
    | digit | point => contradiction
    | _ =>
        obtain rfl := Option.mem_some.mp begins
        decide

/-- Nothing stands between digits and points. -/
theorem layout_numeral (numeral : key.isNumeral = true) (keys : List Key) :
    ∃ last : Key, layout key keys =
      textOf (keys.takeWhile isNumeral) ++ layout last (keys.dropWhile isNumeral) := by
  have plain : key.kind ≠ .operator := by cases key <;> first | contradiction | exact nofun
  induction keys generalizing key with
  | nil => exact ⟨key, rfl⟩
  | cons next keys ih =>
      cases more : next.isNumeral with
      | false => exact ⟨key, by simp [more, textOf]⟩
      | true =>
          have digit : next.kind = .digit := by cases next <;> first | contradiction | rfl
          have together : key.gap next = [] := by simp [gap, parted, digit, plain]
          obtain ⟨last, rest⟩ := ih more (by simp [digit])
          exact ⟨last, by simp [layout, together, more, textOf, rest]⟩

theorem isNumeral_text (numeral : key.isNumeral = true) :
    ∀ c ∈ key.text.toList, IsNumeral c := by
  cases key with
  | digit value =>
      have digits : ∀ value : Fin 10, (Nat.digitChar value).isDigit = true := by decide
      intro c member
      obtain rfl : c = Nat.digitChar value := by simpa [text] using member
      exact .inl (digits value)
  | point => simp [text, IsNumeral]
  | _ => contradiction

theorem isNumeral_textOf (numerals : ∀ key ∈ keys, key.isNumeral = true) :
    ∀ c ∈ textOf keys, IsNumeral c := by
  intro c member
  obtain ⟨key, found, written⟩ := List.mem_flatMap.mp member
  exact isNumeral_text (numerals key found) c written

/-- The tokens are those of the keys, up to spaces; every sign stands behind a space, but for an
operator that begins the tokens. -/
structure Reads (tokens : List Token) (keys : List Key) : Prop where
  same : tokens.filter (· != .space) = tokensOf keys
  apart : SignsApart tokens
  begins : ∀ token ∈ tokens.head?, token.isSign = true → ∃ key ∈ keys.head?, key.kind = .operator

/-- Tokens behind a key: the first one is no sign. -/
structure ReadsBehind (tokens : List Token) (keys : List Key) : Prop extends Reads tokens keys where
  plain : ∀ token ∈ tokens.head?, token.isSign = false

theorem Reads.space {tokens : List Token} (reads : Reads tokens keys) :
    ReadsBehind (.space :: tokens) keys where
  same := reads.same
  apart := List.isChain_cons.mpr ⟨fun _ _ _ => rfl, reads.apart⟩
  begins _ first sign := by cases first; contradiction
  plain _ first := by cases first; rfl

theorem reads_nil : Reads (cut []) [] :=
  ⟨by simp [cut_eq_scan, tokensOf], by simp [cut_eq_scan, SignsApart], by simp [cut_eq_scan]⟩

/-- Tokens without spaces in front of others. -/
theorem ReadsBehind.append {front behind : List Token} (reads : ReadsBehind behind keys)
    (visible : ∀ token ∈ front, token ≠ .space) (apart : SignsApart front) :
    (front ++ behind).filter (· != .space) = front ++ tokensOf keys ∧
      SignsApart (front ++ behind) := by
  constructor
  · rw [List.filter_append, reads.same, List.filter_eq_self.mpr]
    simpa using visible
  · refine List.isChain_append.mpr ⟨apart, reads.apart, fun _ _ token first sign => ?_⟩
    have plain := reads.plain token first
    rw [sign] at plain
    contradiction

/-- No key stands for a space, and none but an operator stands for a sign. -/
theorem visible_tokens (key : Key) : ∀ token ∈ key.tokens, token ≠ .space := by
  cases key <;> simp [tokens]

theorem signsApart_tokens (key : Key) : SignsApart key.tokens := by
  cases key <;> simp [tokens, SignsApart, Token.isSign]

theorem operator_of_sign (key : Key) :
    ∀ token ∈ key.tokens.head?, token.isSign = true → key.kind = .operator := by
  cases key <;> simp [tokens, kind, Token.isSign]

theorem tokens_ne_nil (key : Key) : key.tokens ≠ [] := by
  cases key <;> exact nofun

theorem readsBehind_layout (key : Key)
    (ahead : ∀ next more, keys = next :: more →
      Reads (cut (next.text.toList ++ layout next more)) keys) :
    ReadsBehind (cut (layout key keys)) keys := by
  cases keys with
  | nil =>
      simp only [layout, trail]
      split
      · exact cut_space [] ▸ reads_nil.space
      · exact ⟨reads_nil, by simp [cut_eq_scan]⟩
  | cons next keys =>
      have reads := ahead next keys rfl
      simp only [layout, gap]
      split
      · exact cut_space _ ▸ reads.space
      · rename_i together
        refine ⟨reads, fun token first => Bool.eq_false_iff.mpr fun sign => together ?_⟩
        obtain ⟨_, same, operator⟩ := reads.begins token first sign
        cases same
        exact parted_of_operator key operator

theorem cut_text (single : key.isNumeral = false) (keys : List Key) :
    cut (key.text.toList ++ layout key keys) = key.tokens ++ cut (layout key keys) := by
  rw [cut_eq_scan, cut_eq_scan]
  exact tokens_text single (apart_layout key keys)

/-- A row of digits and points, with what the other keys write behind it. -/
theorem cut_block {block : List Char} (numerals : ∀ c ∈ block, IsNumeral c) {tail : List Char}
    (ends : EndsNumber tail) :
    cut (block ++ tail) = cut block ++ cut tail ∧
      (∀ token ∈ cut block, token ≠ .space ∧ token.isSign = false) := by
  obtain ⟨appended, begin⟩ := scan_block block numerals ends
  simp only [cut_eq_scan]
  refine ⟨by rw [appended, List.map_append], fun token member => ?_⟩
  obtain ⟨lexeme, found, rfl⟩ := List.mem_map.mp member
  exact ofLexeme_of_numeral (begin lexeme found)

theorem ofText_numerals {block : List Char} (numerals : ∀ c ∈ block, IsNumeral c) :
    Token.ofText (String.ofList block) = cut block := by
  refine Token.ofText_of_prepared (prepare_written fun c member => ?_)
  rcases numerals c member with digit | rfl
  · simp [isWritten, digit]
  · rfl

theorem reads_text (key : Key) (keys : List Key) :
    Reads (cut (key.text.toList ++ layout key keys)) (key :: keys) := by
  induction size : keys.length using Nat.strongRecOn generalizing key keys with
  | ind size ih =>
      subst size
      have behind (previous : Key) {rest : List Key} (suffix : rest <:+ keys) :
          ReadsBehind (cut (layout previous rest)) rest := by
        refine readsBehind_layout previous ?_
        rintro next more rfl
        exact ih _ suffix.length_le next more rfl
      cases single : key.isNumeral with
      | false =>
          obtain ⟨same, apart⟩ := (behind key List.suffix_rfl).append key.visible_tokens
            key.signsApart_tokens
          rw [cut_text single]
          refine ⟨by rw [same, tokensOf, single]; rfl, apart, fun token first sign => ?_⟩
          rw [List.head?_append_of_ne_nil _ key.tokens_ne_nil] at first
          exact ⟨key, rfl, key.operator_of_sign token first sign⟩
      | true =>
          obtain ⟨last, written⟩ := layout_numeral single keys
          have numerals : ∀ c ∈ textOf (key :: keys.takeWhile isNumeral), IsNumeral c := by
            refine isNumeral_textOf fun other member => ?_
            rcases List.mem_cons.mp member with rfl | member
            · exact single
            · exact List.all_eq_true.mp List.all_takeWhile other member
          have ends : EndsNumber (layout last (keys.dropWhile isNumeral)) := by
            refine last.endsNumber_layout fun next first => ?_
            simpa [Option.mem_def.mp first] using List.head?_dropWhile_not isNumeral keys
          have reads := behind last (List.dropWhile_suffix isNumeral)
          obtain ⟨appended, plain⟩ := cut_block numerals ends
          obtain ⟨same, apart⟩ := reads.append (fun token member => (plain token member).1)
            (signsApart_of_plain fun token member => (plain token member).2)
          have whole : key.text.toList ++ layout key keys =
              textOf (key :: keys.takeWhile isNumeral) ++
                layout last (keys.dropWhile isNumeral) := by
            rw [written, textOf, textOf, List.flatMap_cons, List.append_assoc]
          rw [whole, appended]
          refine ⟨?_, apart, fun token first sign => ?_⟩
          · rw [same, tokensOf, single, if_pos rfl, ofText_numerals numerals]
          · refine absurd sign (Bool.eq_false_iff.mp ?_)
            rw [List.head?_append] at first
            rcases Option.or_eq_some_iff.mp first with block | ⟨_, other⟩
            · exact (plain token (List.mem_of_mem_head? block)).2
            · exact reads.plain token other

end Key

namespace Token

open Grammar

/-- A sign that stands apart is no sign of an exponent. -/
theorem not_beginsExponent {front behind : List Token} (apart : SignsApart (front ++ behind)) :
    ¬ BeginsExponent behind := by
  rintro ⟨sign, number, rest, rfl, signs, -⟩
  have later := List.IsChain.right_of_append apart
  have parted := (List.isChain_cons_cons.mp later).1
  rcases signs with rfl | rfl <;> exact nomatch parted rfl

end Token

namespace Calculator

open Entry Key Grammar

theorem reads_typeKeys (keys : List Key) :
    Reads (Token.ofText (String.ofList (typeKeys keys []))) keys := by
  cases keys with
  | nil =>
      have blank : Token.ofText (String.ofList (typeKeys [] [])) = Token.cut [] :=
        Token.ofText_of_prepared (show Lexeme.prepare [] = [] by decide)
      exact blank ▸ reads_nil
  | cons key keys =>
      rw [typeKeys_nil, Token.ofText_of_prepared (prepare_layout key keys)]
      exact key.reads_text keys

/-- Keys pressed on an empty entry are read one by one, whatever their order: the tokens are those
of the keys, and no number takes a constant, a sign and digits as its exponent. -/
theorem tokens_performAll_keys (calculator : Calculator) (empty : calculator.entry = "")
    (keys : List Key) :
    let tokens :=
      Token.ofText (calculator.performAll (keys.map fun key => .press (.insert key))).entry
    tokens.filter (· != .space) = Key.tokensOf keys ∧
      ∀ front text behind, tokens = front ++ .number text :: behind →
        spelling text behind = (text, behind) := by
  rw [entry_performAll_keys, empty, String.toList_empty]
  have reads := reads_typeKeys keys
  refine ⟨reads.same, fun front text behind split => ?_⟩
  have apart := reads.apart
  rw [split, List.append_cons] at apart
  exact spelling_of_not_begins text (Token.not_beginsExponent apart)

theorem tokens_performAll_keys_mixed :
    let keys : List Key := [.digit 2, .euler, .minus, .digit 3, .star, .star, .exp, .pi, .point]
    (Token.ofText ((initial {}).performAll (keys.map fun key => .press (.insert key))).entry).filter
        (· != .space) =
      [.number "2", .euler, .minus, .number "3", .star, .star, .exp, .opening,
        .number "3.141592653589793", .unknown "."] := by
  intro keys
  have read := (tokens_performAll_keys (initial {}) rfl keys).1
  have two : Token.ofText (digit 2).text = [.number "2"] := by decide +kernel
  have three : Token.ofText (digit 3).text = [.number "3"] := by decide +kernel
  have mark : Token.ofText point.text = [.unknown "."] := by decide +kernel
  refine read.trans ?_
  simp [keys, Key.tokensOf, Key.isNumeral, Key.tokens, textOf, two, three, mark]

end Calculator
end ComplexCalculator
