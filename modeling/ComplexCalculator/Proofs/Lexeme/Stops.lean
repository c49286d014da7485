import Mathlib
import ComplexCalculator.Proofs.Lexeme.Written

namespace ComplexCalculator

namespace Text

theorem lowercaseAt_of_ne_sigma {c : Char} (other : c ≠ 'Σ') (before after : List Char) :
    lowercaseAt before c after = lowercaseAt [] c [] := by
  rw [lowercaseAt, lowercaseAt, if_neg other, if_neg other]

/-- Without a capital sigma each character has its lower-case form alone. -/
theorem lowercaseFrom_of_no_sigma {text : List Char} (none : 'Σ' ∉ text) (before : List Char) :
    lowercaseFrom before text = text.flatMap fun c => lowercaseAt [] c [] := by
  induction text generalizing before with
  | nil => rfl
  | cons c rest ih =>
      simp only [List.mem_cons, not_or] at none
      rw [lowercaseFrom, ih none.2, lowercaseAt_of_ne_sigma (Ne.symm none.1), List.flatMap_cons]

theorem mem_lowercaseFrom_of_sigma {text : List Char} (member : 'Σ' ∈ text)
    (before : List Char) :
    'σ' ∈ lowercaseFrom before text ∨ 'ς' ∈ lowercaseFrom before text := by
  induction text generalizing before with
  | nil => contradiction
  | cons c rest ih =>
      simp only [lowercaseFrom, List.mem_append]
      rcases List.mem_cons.mp member with rfl | member
      · have sigma : lowercaseAt before 'Σ' rest = ['ς'] ∨ lowercaseAt before 'Σ' rest = ['σ'] := by
          rw [lowercaseAt, if_neg (by decide), if_pos rfl]
          split <;> simp
        rcases sigma with sigma | sigma <;> simp [sigma]
      · exact (ih member (c :: before)).imp .inr .inr

end Text

namespace Lexeme

section Preparation

theorem foldSpaces_append {c : Char} (solid : isFolded c = false) (pending : Bool)
    (front rest : List Char) :
    foldSpaces pending (front ++ c :: rest) =
      foldSpaces pending front ++ c :: foldSpaces false rest := by
  induction front generalizing pending with
  | nil => simp [foldSpaces, solid]
  | cons d front ih =>
      simp only [List.cons_append, foldSpaces, ih]
      split
      · split <;> rfl
      · rfl

theorem mem_foldSpaces {c : Char} (solid : isFolded c = false) {text : List Char}
    (member : c ∈ text) : c ∈ foldSpaces false text := by
  obtain ⟨front, rest, rfl⟩ := List.append_of_mem member
  simp [foldSpaces_append solid]

theorem mem_prepare_of_sigma {text : List Char} (member : 'Σ' ∈ text) :
    'σ' ∈ prepare text ∨ 'ς' ∈ prepare text := by
  refine (Text.mem_lowercaseFrom_of_sigma member []).imp (fun found => ?_) fun found => ?_
  all_goals
    exact mem_foldSpaces (by decide) (List.mem_filter.mpr ⟨found, by decide⟩)

theorem Plain.ne_sigma {c : Char} (plain : Plain c) : c ≠ 'Σ' := by
  rintro rfl
  exact absurd (plain.lower [] []) (by decide)

/-- What is on either side of a plain character is prepared alone. -/
theorem prepare_append {c : Char} (plain : Plain c) {front rest : List Char}
    (none : 'Σ' ∉ front) (none' : 'Σ' ∉ rest) :
    prepare (front ++ c :: rest) = prepare front ++ c :: prepare rest := by
  have whole : 'Σ' ∉ front ++ c :: rest := by
    simp [none, none', plain.ne_sigma.symm]
  have lower (text : List Char) (none : 'Σ' ∉ text) : Text.lowercase text =
      text.flatMap fun c => Text.lowercaseAt [] c [] := Text.lowercaseFrom_of_no_sigma none []
  rw [prepare, prepare, prepare, lower _ whole, lower _ none, lower _ none', List.flatMap_append,
    List.flatMap_cons, plain.lower, List.singleton_append, List.filter_append, List.filter_cons,
    if_pos plain.kept, foldSpaces_append plain.unfolded]

theorem prepare_cons {c : Char} (plain : Plain c) {rest : List Char} (none : 'Σ' ∉ rest) :
    prepare (c :: rest) = c :: prepare rest :=
  prepare_append plain List.not_mem_nil none

end Preparation

section Scanning

variable {c d stop : Char} {rest tail behind more : List Char} {pattern : Pattern}
variable {patterns : List Pattern}

/-- The word that begins here is the same whatever text is appended. -/
def Pattern.EndsBefore (pattern : Pattern) (c : Char) (rest tail : List Char) : Prop :=
  pattern.fits c (rest ++ tail) = (pattern.fits c rest).map fun cut => (cut.1, cut.2 ++ tail)

theorem suffix_of_fits (member : pattern ∈ wordPatterns) {lexeme : Lexeme}
    (fitting : pattern.fits c rest = some (lexeme, behind)) : behind <:+ rest := by
  simp only [wordPatterns, List.mem_cons, List.not_mem_nil, or_false] at member
  rcases member with rfl | rfl | rfl | rfl | rfl | rfl | rfl
  · obtain ⟨-, cut⟩ := numberPattern_fits.mp fitting
    have suffix := number_suffix c rest
    rwa [cut] at suffix
  · obtain ⟨⟨-, rfl⟩ | ⟨-, rfl⟩, -⟩ := piPattern_fits.mp fitting
    · exact List.suffix_rfl
    · exact List.suffix_cons _ _
  · obtain ⟨-, taken⟩ := Pattern.fits_iff.mp fitting
    cases taken
    exact List.dropWhile_suffix _
  · obtain ⟨-, -, ⟨rfl, -⟩ | rfl | rfl⟩ := expPattern_fits.mp fitting
    · exact (List.suffix_cons _ _).trans (List.suffix_cons _ _)
    · exact List.suffix_cons _ _
    · exact (List.suffix_cons _ _).trans (List.suffix_cons _ _)
  · obtain ⟨-, -, rfl | rfl⟩ := lnPattern_fits.mp fitting
    · exact (List.suffix_cons _ _).trans (List.suffix_cons _ _)
    · exact List.suffix_cons _ _
  · obtain ⟨-, rfl, -⟩ := caretPattern_fits.mp fitting
    exact List.suffix_cons _ _
  · obtain ⟨-, rfl, -⟩ := unitPattern_fits.mp fitting
    exact List.suffix_rfl

theorem next_suffix (known : patterns ⊆ wordPatterns) (c : Char) (rest : List Char) :
    (next patterns c rest).2 <:+ rest := by
  rcases next_cases patterns c rest with ⟨pattern, member, fitting⟩ | alone
  · exact suffix_of_fits (known member) fitting
  · rw [alone]

theorem next_append (ends : ∀ pattern ∈ patterns, pattern.EndsBefore c rest tail) :
    next patterns c (rest ++ tail) =
      ((next patterns c rest).1, (next patterns c rest).2 ++ tail) := by
  unfold next
  induction patterns with
  | nil => rfl
  | cons pattern patterns ih =>
      rw [List.findSome?_cons, List.findSome?_cons, ends pattern List.mem_cons_self]
      cases pattern.fits c rest with
      | none => exact ih fun other member => ends other (List.mem_cons_of_mem pattern member)
      | some cut => rfl

/-- A text is cut in two where no word of the first part takes up the second. -/
theorem scan_append (known : patterns ⊆ wordPatterns) {front tail : List Char}
    (ends : ∀ c rest, c :: rest <:+ front → ∀ pattern ∈ patterns,
      pattern.EndsBefore c rest tail) :
    scan patterns (front ++ tail) = scan patterns front ++ scan patterns tail := by
  induction size : front.length using Nat.strongRecOn generalizing front with
  | ind size ih =>
      subst size
      cases front with
      | nil => rw [scan_nil, List.nil_append, List.nil_append]
      | cons c rest =>
          have shorter := Nat.lt_succ_of_le (next_shrinks patterns c rest)
          have left := (next_suffix known c rest).trans (List.suffix_cons c rest)
          rw [List.cons_append, scan_cons, next_append (ends c rest List.suffix_rfl),
            ih _ shorter (fun d more suffix => ends d more (suffix.trans left)) rfl, scan_cons,
            List.cons_append]

/-- What begins a list that goes on with another character, begins it before that character. -/
theorem append_eq_cons (apart : rest ≠ [] ∨ stop ≠ d) :
    rest ++ stop :: behind = d :: more ↔
      ∃ inner, rest = d :: inner ∧ inner ++ stop :: behind = more := by
  cases rest with
  | nil =>
      have other : stop ≠ d := apart.resolve_left (by simp)
      simp [other]
  | cons first rest => simp [and_comm]

theorem head?_append_ne (other : stop ≠ d) :
    (rest ++ stop :: behind).head? = some d ↔ rest.head? = some d := by
  cases rest with
  | nil => simp [other]
  | cons first rest => rfl

theorem endsNumber_cons (digit : stop.isDigit = false) (point : stop ≠ '.') (comma : stop ≠ ',') :
    EndsNumber (stop :: behind) := by
  intro d found
  cases found
  exact ⟨digit, point, comma⟩

/-- A caret makes an exponential of the `e` right before it, and of nothing else. -/
theorem endsBefore_exp (outside : stop ∉ ['x', 'p', 'i', '*'])
    (apart : stop = '^' → c = 'e' → rest ≠ []) :
    expPattern.EndsBefore c rest (stop :: behind) := by
  by_cases euler : c = 'e'
  · simp only [List.mem_cons, List.not_mem_nil, or_false, not_or] at outside
    obtain ⟨x, p, i, star⟩ := outside
    have caret : rest ≠ [] ∨ stop ≠ '^' := by tauto
    refine Option.ext fun result => ?_
    obtain ⟨lexeme, left⟩ := result
    simp only [Option.map_eq_some_iff, Prod.exists, Prod.mk.injEq]
    simp only [expPattern_fits, append_eq_cons (.inr x), append_eq_cons (.inr p),
      append_eq_cons caret, append_eq_cons (.inr star)]
    constructor
    · rintro ⟨-, rfl, ⟨⟨_, rfl, left, rfl, rfl⟩, goesOn⟩ | ⟨left, rfl, rfl⟩ |
        ⟨_, rfl, left, rfl, rfl⟩⟩
      · rw [Ne, head?_append_ne i] at goesOn
        exact ⟨_, left, ⟨euler, rfl, .inl ⟨rfl, goesOn⟩⟩, rfl, rfl⟩
      · exact ⟨_, left, ⟨euler, rfl, .inr (.inl rfl)⟩, rfl, rfl⟩
      · exact ⟨_, left, ⟨euler, rfl, .inr (.inr rfl)⟩, rfl, rfl⟩
    · rintro ⟨_, left, ⟨-, rfl, ⟨rfl, goesOn⟩ | rfl | rfl⟩, rfl, rfl⟩
      · rw [Ne, ← head?_append_ne i] at goesOn
        exact ⟨euler, rfl, .inl ⟨⟨_, rfl, left, rfl, rfl⟩, goesOn⟩⟩
      · exact ⟨euler, rfl, .inr (.inl ⟨left, rfl, rfl⟩)⟩
      · exact ⟨euler, rfl, .inr (.inr ⟨_, rfl, left, rfl, rfl⟩)⟩
  · have elsewhere : expPattern.begins c = false := by simpa [expPattern] using euler
    rw [Pattern.EndsBefore, Pattern.fits_eq_none _ elsewhere, Pattern.fits_eq_none _ elsewhere]
    rfl

/-- The words but for the signs. -/
def unsignedPatterns : List Pattern :=
  [numberPattern, piPattern, expPattern, lnPattern, caretPattern, unitPattern]

theorem unsignedPatterns_subset : unsignedPatterns ⊆ wordPatterns := by
  simp [unsignedPatterns, wordPatterns]

/-- Whether a word begins somewhere, and where it ends, is decided before the stop. -/
theorem endsBefore_unsigned (member : pattern ∈ unsignedPatterns) (digit : stop.isDigit = false)
    (outside : stop ∉ ['.', ',', 'i', 'o', 'g', 'n', '*', 'x', 'p'])
    (apart : stop = '^' → c = 'e' → rest ≠ []) :
    pattern.EndsBefore c rest (stop :: behind) := by
  simp only [List.mem_cons, List.not_mem_nil, or_false, not_or] at outside
  obtain ⟨point, comma, i, o, g, n, star, x, p⟩ := outside
  have exponential : expPattern.EndsBefore c rest (stop :: behind) :=
    endsBefore_exp (by simp [x, p, i, star]) apart
  simp only [unsignedPatterns, List.mem_cons, List.not_mem_nil, or_false] at member
  rcases member with rfl | rfl | rfl | rfl | rfl | rfl
  case inr.inr.inl => exact exponential
  all_goals
    refine Option.ext fun result => ?_
    obtain ⟨lexeme, left⟩ := result
    simp only [Option.map_eq_some_iff, Prod.exists, Prod.mk.injEq]
  · simp only [numberPattern_fits, number_append (endsNumber_cons digit point comma), Prod.ext_iff]
    aesop
  · simp only [piPattern_fits, append_eq_cons (.inr i)]
    aesop
  · simp only [lnPattern_fits, append_eq_cons (.inr o), append_eq_cons (.inr g),
      append_eq_cons (.inr n)]
    aesop
  · simp only [caretPattern_fits, append_eq_cons (.inr star)]
    aesop
  · simp only [unitPattern_fits]
    aesop

theorem takeWhile_append_stop {inside : Char → Bool} (other : inside stop = false)
    (rest behind : List Char) :
    (rest ++ stop :: behind).takeWhile inside = rest.takeWhile inside ∧
      (rest ++ stop :: behind).dropWhile inside = rest.dropWhile inside ++ stop :: behind := by
  induction rest with
  | nil => simp [other]
  | cons d rest ih =>
      obtain ⟨taken, dropped⟩ := ih
      cases goesOn : inside d <;> simp [goesOn, taken, dropped]

theorem endsBefore_signs (other : signRun.inside stop = false) :
    signsPattern.EndsBefore c rest (stop :: behind) := by
  obtain ⟨taken, dropped⟩ := takeWhile_append_stop other rest behind
  unfold Pattern.EndsBefore Pattern.fits signsPattern Run.pattern
  simp only [taken, dropped]
  split <;> rfl

/-- Any other character than those that words go on with ends all words. -/
theorem scan_append_stop (digit : stop.isDigit = false)
    (outside : stop ∉ ['.', ',', 'i', 'o', 'g', 'n', '*', 'x', 'p', '+', '-'])
    (front behind : List Char) (apart : stop = '^' → front.getLast? ≠ some 'e') :
    scan wordPatterns (front ++ stop :: behind) =
      scan wordPatterns front ++ scan wordPatterns (stop :: behind) := by
  refine scan_append (List.Subset.refl _) fun c rest suffix pattern member => ?_
  have notSign : signRun.inside stop = false := by
    simp only [List.mem_cons, not_or] at outside
    simp [signRun, outside]
  have others : stop ∉ ['.', ',', 'i', 'o', 'g', 'n', '*', 'x', 'p'] :=
    fun found => outside (List.mem_append_left ['+', '-'] found)
  have before : stop = '^' → c = 'e' → rest ≠ [] := by
    rintro caret rfl rfl
    obtain ⟨before, rfl⟩ := suffix
    exact apart caret List.getLast?_concat
  have known : pattern ∈ unsignedPatterns ∨ pattern = signsPattern := by
    simp only [wordPatterns, unsignedPatterns, List.mem_cons] at member ⊢
    tauto
  rcases known with unsigned | rfl
  · exact endsBefore_unsigned unsigned digit others before
  · exact endsBefore_signs notSign

end Scanning
end Lexeme

namespace Token

open Lexeme

variable {stop : Char} {front behind : List Char}

theorem cut_append_stop (digit : stop.isDigit = false)
    (outside : stop ∉ ['.', ',', 'i', 'o', 'g', 'n', '*', 'x', 'p', '+', '-'])
    (front behind : List Char) (apart : stop = '^' → front.getLast? ≠ some 'e') :
    cut (front ++ stop :: behind) = cut front ++ cut (stop :: behind) := by
  rw [cut_eq_scan, scan_append_stop digit outside front behind apart, List.map_append, cut_eq_scan,
    cut_eq_scan]

/-- A text with a capital sigma is not an expression: no word has a sigma. -/
theorem no_sigma_of_known {text : String} (known : ∀ word, unknown word ∉ ofText text) :
    'Σ' ∉ text.toList := by
  intro member
  have sigma (c : Char) (found : c ∈ prepare text.toList)
      (plain : ∀ rest, scan wordPatterns (c :: rest) = [c] :: scan wordPatterns rest)
      (digit : c.isDigit = false)
      (outside : c ∉ ['.', ',', 'i', 'o', 'g', 'n', '*', 'x', 'p', '+', '-']) (caret : c ≠ '^') :
      ofLexeme [c] ∈ ofText text := by
    obtain ⟨front, behind, split⟩ := List.append_of_mem found
    rw [ofText_eq_cut, split,
      cut_append_stop digit outside front behind fun same => absurd same caret,
      cut_eq_scan (c :: behind), plain behind]
    simp
  rcases mem_prepare_of_sigma member with found | found
  · exact known _ (sigma 'σ' found (fun rest => scan_cons_plain (by decide)) rfl (by decide)
      (by decide))
  · exact known _ (sigma 'ς' found (fun rest => scan_cons_plain (by decide)) rfl (by decide)
      (by decide))

theorem ofLexeme_euler {lexeme : Lexeme} (euler : ofLexeme lexeme = .euler) : lexeme = ['e'] := by
  unfold ofLexeme at euler
  split at euler
  case h_10 => rfl
  case h_13 => split at euler <;> cases euler
  all_goals cases euler

theorem eq_euler_of_cut {text : List Char} (euler : cut text = [.euler]) : text = ['e'] := by
  rw [cut_eq_scan, List.map_eq_singleton_iff] at euler
  obtain ⟨lexeme, alone, same⟩ := euler
  rw [ofLexeme_euler same] at alone
  obtain ⟨rest, rfl, nothing⟩ := scan_eq_plain (List.Subset.refl _) (by decide) alone
  cases rest with
  | nil => rfl
  | cons c rest =>
      rw [scan_cons] at nothing
      cases nothing

/-- Only where a text ends in `e`, its tokens do. -/
theorem getLast?_cut (other : (cut front).getLast? ≠ some .euler) : front.getLast? ≠ some 'e' := by
  intro last
  obtain ⟨before, rfl⟩ := List.getLast?_eq_some_iff.mp last
  have euler : cut (before ++ ['e']) = cut before ++ [.euler] :=
    cut_append_stop rfl (by decide) before [] fun caret => absurd caret (by decide)
  rw [euler, List.getLast?_concat] at other
  contradiction

section Texts

variable {text rest : String} (none : 'Σ' ∉ text.toList) (none' : 'Σ' ∉ rest.toList)

include none

theorem ofText_parentheses :
    ofText ("(" ++ text ++ ")") = .opening :: (ofText text ++ [.closing]) := by
  have opening : Plain '(' := plain_written rfl
  have closing : Plain ')' := plain_written rfl
  have split : ("(" ++ text ++ ")").toList = '(' :: (text.toList ++ ')' :: []) := by simp
  have front (rest : List Char) : cut ('(' :: rest) = .opening :: cut rest := by
    rw [cut_eq_scan, scan_parenthesis (.inl rfl), List.map_cons, cut_eq_scan]
    rfl
  have back (text : List Char) : cut (text ++ [')']) = cut text ++ [.closing] :=
    cut_append_stop rfl (by decide) text [] fun caret => absurd caret (by decide)
  rw [ofText_eq_cut, split, prepare_cons opening (by simp [none]),
    prepare_append closing none List.not_mem_nil]
  exact (front _).trans (congrArg _ (back _))

include none'

theorem ofText_caret (other : (ofText text).getLast? ≠ some .euler) :
    ofText (text ++ "^" ++ rest) = ofText text ++ .caret :: ofText rest := by
  have caret (rest : List Char) : cut ('^' :: rest) = .caret :: cut rest := by
    rw [cut_eq_scan, scan_cons_plain (by decide), List.map_cons, cut_eq_scan]
    rfl
  have split : (text ++ "^" ++ rest).toList = text.toList ++ '^' :: rest.toList := by simp
  rw [ofText_eq_cut, split, prepare_append (plain_written rfl) none none',
    cut_append_stop rfl (by decide) _ _ fun _ => getLast?_cut other, caret]
  rfl

theorem ofText_exponential (euler : ofText text = [.euler]) :
    ofText (text ++ "^" ++ rest) = .exp :: ofText rest := by
  have split : (text ++ "^" ++ rest).toList = text.toList ++ '^' :: rest.toList := by simp
  rw [ofText_eq_cut, split, prepare_append (plain_written rfl) none none', eq_euler_of_cut euler,
    List.singleton_append, cut_eq_scan, scan_exponential, List.map_cons, ← cut_eq_scan]
  rfl

end Texts

end Token
end ComplexCalculator
