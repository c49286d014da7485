import Mathlib
import ComplexCalculator.Proofs.Lexeme.Stops

namespace ComplexCalculator

/-- `true` is the minus sign. -/
def signChar (negative : Bool) : Char := if negative then '-' else '+'

namespace Text

variable {stop : Char}

/-- A character that ends the search for a letter with case. -/
theorem meetsCased_stop (counts : isCaseIgnorable stop = false) (caseless : isCased stop = false)
    (front rest : List Char) : meetsCased (front ++ stop :: rest) = meetsCased front := by
  unfold meetsCased
  rw [List.find?_append]
  cases front.find? fun c => !isCaseIgnorable c with
  | none => simp [counts, caseless]
  | some c => rfl

theorem lowercaseAt_stop (counts : isCaseIgnorable stop = false) (caseless : isCased stop = false)
    (before : List Char) (c : Char) (after rest : List Char) :
    lowercaseAt before c (after ++ stop :: rest) = lowercaseAt before c after := by
  rw [lowercaseAt, lowercaseAt, meetsCased_stop counts caseless]

theorem lowercaseFrom_before_stop (counts : isCaseIgnorable stop = false)
    (caseless : isCased stop = false) (before front rest : List Char) :
    lowercaseFrom before (front ++ stop :: rest) =
      lowercaseFrom before front ++ lowercaseFrom (front.reverse ++ before) (stop :: rest) := by
  induction front generalizing before with
  | nil => rfl
  | cons c front ih =>
      have reversed : (c :: front).reverse ++ before = front.reverse ++ c :: before := by simp
      have first (after : List Char) : lowercaseFrom before (c :: after) =
          lowercaseAt before c after ++ lowercaseFrom (c :: before) after := rfl
      rw [reversed, List.cons_append, first, first, lowercaseAt_stop counts caseless, ih,
        List.append_assoc]

theorem lowercaseFrom_behind_stop (counts : isCaseIgnorable stop = false)
    (caseless : isCased stop = false) (near far rest : List Char) :
    lowercaseFrom (near ++ stop :: far) rest = lowercaseFrom near rest := by
  induction rest generalizing near with
  | nil => rfl
  | cons c rest ih =>
      have next := ih (c :: near)
      rw [List.cons_append] at next
      rw [lowercaseFrom, lowercaseFrom, next, lowercaseAt, lowercaseAt,
        meetsCased_stop counts caseless]

/-- A sign is neither a letter with case nor passed over when looking for one. -/
theorem caseless_sign (negative : Bool) :
    isCaseIgnorable (signChar negative) = false ∧ isCased (signChar negative) = false := by
  -- the search in a list is decided much faster than the search in an array
  rw [isCaseIgnorable, isCased, inRanges, inRanges, ← Array.any_toList, ← Array.any_toList]
  cases negative <;> decide +kernel

theorem lowercase_sign (negative : Bool) (front rest : List Char) :
    lowercase (front ++ signChar negative :: rest) =
      lowercase front ++ signChar negative :: lowercase rest := by
  obtain ⟨counts, caseless⟩ := caseless_sign negative
  have same (before after : List Char) :
      lowercaseAt before (signChar negative) after = [signChar negative] := by
    cases negative <;> rfl
  have behind := lowercaseFrom_behind_stop counts caseless [] (front.reverse ++ []) rest
  rw [List.nil_append] at behind
  rw [lowercase, lowercaseFrom_before_stop counts caseless, lowercaseFrom, same, behind, lowercase,
    lowercase]
  rfl

end Text

namespace Lexeme

section Preparation

theorem prepare_sign (negative : Bool) (front rest : List Char) :
    prepare (front ++ signChar negative :: rest) =
      prepare front ++ signChar negative :: prepare rest := by
  have kept : (signChar negative != unitSeparator) = true := by cases negative <;> rfl
  have solid : isFolded (signChar negative) = false := by cases negative <;> rfl
  rw [prepare, Text.lowercase_sign, List.filter_append, List.filter_cons, if_pos kept,
    foldSpaces_append solid, prepare, prepare]

theorem prepare_sign_cons (negative : Bool) (rest : List Char) :
    prepare (signChar negative :: rest) = signChar negative :: prepare rest :=
  prepare_sign negative [] rest

theorem prepare_space_sign (negative : Bool) (rest : List Char) :
    prepare (' ' :: signChar negative :: rest) = ' ' :: signChar negative :: prepare rest :=
  prepare_sign negative [' '] rest

end Preparation

section Scanning

theorem scan_eq_merge (text : List Char) :
    scan wordPatterns text = signsJoining.merge (scan unsignedPatterns text) :=
  (merge_scan_signs [numberPattern, piPattern] [expPattern, lnPattern, caretPattern, unitPattern]
    unsignedPatterns_subset (by decide) text).symm

/-- Without the joining of signs, a sign cuts a text in two. -/
theorem scan_append_sign (front behind : List Char) (negative : Bool) :
    scan unsignedPatterns (front ++ signChar negative :: behind) =
      scan unsignedPatterns front ++ [signChar negative] :: scan unsignedPatterns behind := by
  have alone : scan unsignedPatterns (signChar negative :: behind) =
      [signChar negative] :: scan unsignedPatterns behind := by
    refine scan_cons_plain ?_
    cases negative <;> decide
  rw [scan_append unsignedPatterns_subset, alone]
  intro c rest _ pattern member
  cases negative <;>
    exact endsBefore_unsigned member rfl (by decide) fun caret => absurd caret (by decide)

end Scanning

section Merging

variable {lexemes : List Lexeme}

theorem isSign_signChar (negative : Bool) : isSign [signChar negative] = true := by
  cases negative <;> rfl

theorem eq_signChar_of_isSign {lexeme : Lexeme} (sign : isSign lexeme = true) :
    lexeme = [signChar (lexeme == ['-'])] := by
  rcases isSign_iff.mp sign with rfl | rfl <;> rfl

theorem some_beq_minus {lexeme : Lexeme} (plain : isSign lexeme = false) :
    (some lexeme == some ['-']) = false := by
  refine beq_eq_false_iff_ne.mpr fun same => ?_
  rw [Option.some.inj same] at plain
  contradiction

theorem combine_sign (first second : Bool) :
    signsJoining.combine [signChar first] [signChar second] = [signChar (first ^^ second)] := by
  cases first <;> cases second <;> rfl

theorem push_sign_sign (first second : Bool) (rest : List Lexeme) :
    signsJoining.push [signChar first] ([signChar second] :: rest) =
      [signChar (first ^^ second)] :: rest := by
  have left : signsJoining.member [signChar first] = true := isSign_signChar first
  have right : signsJoining.member [signChar second] = true := isSign_signChar second
  rw [Joining.push_cons, left, right, combine_sign]
  rfl

/-- A sign takes up the sign that follows it. -/
theorem push_sign (negative : Bool) (apart : signsJoining.Apart lexemes) :
    signsJoining.push [signChar negative] lexemes =
      [signChar (negative ^^ lexemes.head? == some ['-'])] :: lexemes.dropWhile isSign := by
  cases lexemes with
  | nil => cases negative <;> rfl
  | cons second rest =>
      cases sign : isSign second with
      | false =>
          have outside : signsJoining.member second = false := sign
          simp [Joining.push_cons, outside, sign, some_beq_minus sign]
      | true =>
          have alone : rest.dropWhile isSign = rest := by
            cases rest with
            | nil => rfl
            | cons third more =>
                have notBoth := apart second third more (List.suffix_refl _)
                have outside : isSign third = false := by simpa [signsJoining, sign] using notBoth
                rw [List.dropWhile_cons_of_neg (by simp [outside])]
          rw [List.dropWhile_cons_of_pos sign, alone, eq_signChar_of_isSign sign, push_sign_sign]
          rcases isSign_iff.mp sign with rfl | rfl <;> rfl

/-- A sign takes up the sign that precedes it. -/
theorem foldr_push_sign (negative : Bool) (behind : List Lexeme)
    (apart : signsJoining.Apart lexemes) :
    lexemes.foldr signsJoining.push (signsJoining.push [signChar negative] behind) =
      lexemes.rdropWhile isSign ++
        signsJoining.push [signChar (lexemes.getLast? == some ['-'] ^^ negative)] behind := by
  rcases lexemes.eq_nil_or_concat' with rfl | ⟨front, last, rfl⟩
  · simp
  · cases sign : isSign last with
    | false =>
        have outside :
            ∀ lexeme ∈ (front ++ [last]).getLast?, signsJoining.member lexeme = false := by
          intro lexeme found
          rw [List.getLast?_concat, Option.mem_some_iff] at found
          rw [← found]
          exact sign
        rw [Joining.foldr_push_of_apart apart outside,
          List.rdropWhile_concat_neg _ _ _ (by simp [sign]), List.getLast?_concat,
          some_beq_minus sign, Bool.false_xor]
    | true =>
        have outside : ∀ lexeme ∈ front.getLast?, signsJoining.member lexeme = false := by
          intro lexeme found
          obtain ⟨before, rfl⟩ := List.getLast?_eq_some_iff.mp found
          have notBoth := apart lexeme last [] ⟨before, by simp⟩
          simpa [signsJoining, sign] using notBoth
        have whole : front.rdropWhile isSign = front := by
          refine List.rdropWhile_eq_self_iff.mpr fun nonempty => ?_
          have plain : isSign (front.getLast nonempty) = false :=
            outside _ (List.getLast?_eq_some_getLast nonempty)
          simp [plain]
        rw [List.rdropWhile_concat_pos _ _ _ sign, whole, List.foldr_append,
          Joining.foldr_push_of_apart apart.front outside, List.foldr_cons, List.foldr_nil,
          List.getLast?_concat, eq_signChar_of_isSign sign, ← combine_sign,
          Joining.push_combine (isSign_signChar _) (isSign_signChar _)]
        rcases isSign_iff.mp sign with rfl | rfl <;> rfl

end Merging

section Cutting

theorem scan_sign_cons (negative : Bool) (text : List Char) :
    scan wordPatterns (signChar negative :: text) =
      signsJoining.push [signChar negative] (scan wordPatterns text) := by
  have cut := scan_append_sign [] text negative
  rw [List.nil_append] at cut
  rw [scan_eq_merge, cut, scan_nil, List.nil_append, Joining.merge_cons, scan_eq_merge text]

theorem apart_scan (text : List Char) : signsJoining.Apart (scan wordPatterns text) := by
  rw [scan_eq_merge]
  exact Joining.apart_merge _

/-- A sign is cut from what precedes it, but takes up a sign at its end. -/
theorem scan_before_sign (negative : Bool) (front behind : List Char) :
    scan wordPatterns (front ++ signChar negative :: behind) =
      (scan wordPatterns front).rdropWhile isSign ++
        scan wordPatterns
          (signChar ((scan wordPatterns front).getLast? == some ['-'] ^^ negative) :: behind) := by
  rw [scan_sign_cons, ← foldr_push_sign _ _ (apart_scan front), scan_eq_merge, scan_append_sign,
    Joining.merge_append, Joining.merge_cons, ← scan_eq_merge, ← scan_eq_merge]

/-- A sign is cut from what follows it, but takes up a sign at its front. -/
theorem scan_behind_sign (negative : Bool) (behind : List Char) :
    scan wordPatterns (signChar negative :: behind) =
      [signChar (negative ^^ (scan wordPatterns behind).head? == some ['-'])] ::
        (scan wordPatterns behind).dropWhile isSign := by
  rw [scan_sign_cons, push_sign negative (apart_scan behind)]

end Cutting
end Lexeme

namespace Token

theorem ofLexeme_minus_iff {lexeme : Lexeme} : ofLexeme lexeme = .minus ↔ lexeme = ['-'] := by
  constructor
  · intro minus
    unfold ofLexeme at minus
    split at minus
    case h_2 => rfl
    case h_13 => split at minus <;> cases minus
    all_goals cases minus
  · rintro rfl
    rfl

theorem isSign_ofLexeme (lexeme : Lexeme) : (ofLexeme lexeme).isSign = Lexeme.isSign lexeme := by
  unfold ofLexeme
  split
  case h_13 notPlus notMinus _ _ _ _ _ _ _ _ _ _ =>
    have other : Lexeme.isSign lexeme = false := by
      refine Bool.eq_false_iff.mpr fun sign => ?_
      rcases Lexeme.isSign_iff.mp sign with rfl | rfl
      · exact notPlus rfl
      · exact notMinus rfl
    rw [other]
    split <;> rfl
  all_goals rfl

theorem ofLexeme_signChar (negative : Bool) : ofLexeme [signChar negative] = ofSign negative :=
  ofLexeme_sign negative

theorem cut_before_sign (negative : Bool) (front behind : List Char) :
    cut (front ++ signChar negative :: behind) =
      (cut front).rdropWhile isSign ++
        cut (signChar ((cut front).getLast? == some .minus ^^ negative) :: behind) := by
  have minus : ((cut front).getLast? == some .minus) =
      ((Lexeme.scan Lexeme.wordPatterns front).getLast? == some ['-']) := by
    rw [cut_eq_scan, List.getLast?_map, Bool.eq_iff_iff]
    simp [ofLexeme_minus_iff]
  have signs : isSign ∘ ofLexeme = Lexeme.isSign := funext isSign_ofLexeme
  have trimmed (lexemes : List Lexeme) : (lexemes.map ofLexeme).rdropWhile isSign =
      (lexemes.rdropWhile Lexeme.isSign).map ofLexeme := by
    rw [List.rdropWhile, ← List.map_reverse, List.dropWhile_map, signs, ← List.map_reverse]
    rfl
  rw [minus, cut_eq_scan, Lexeme.scan_before_sign, List.map_append, cut_eq_scan, cut_eq_scan,
    trimmed]

theorem cut_behind_sign (negative : Bool) (behind : List Char) :
    cut (signChar negative :: behind) =
      ofSign (negative ^^ (cut behind).head? == some .minus) :: (cut behind).dropWhile isSign := by
  have minus : ((cut behind).head? == some .minus) =
      ((Lexeme.scan Lexeme.wordPatterns behind).head? == some ['-']) := by
    rw [cut_eq_scan, List.head?_map, Bool.eq_iff_iff]
    simp [ofLexeme_minus_iff]
  have signs : isSign ∘ ofLexeme = Lexeme.isSign := funext isSign_ofLexeme
  rw [minus, cut_eq_scan, Lexeme.scan_behind_sign, List.map_cons, ofLexeme_signChar, cut_eq_scan,
    List.dropWhile_map, signs]

theorem cut_two_signs (first second : Bool) (behind : List Char) :
    cut (signChar first :: signChar second :: behind) =
      ofSign (first ^^ (second ^^ (cut behind).head? == some .minus)) ::
        (cut behind).dropWhile isSign := by
  have sign (negative : Bool) : (ofSign negative).isSign = true := by cases negative <;> rfl
  have minus (negative : Bool) : (some (ofSign negative) == some .minus) = negative := by
    cases negative <;> rfl
  rw [cut_behind_sign first, cut_behind_sign second, List.head?_cons, minus,
    List.dropWhile_cons_of_pos (sign _), List.dropWhile_idempotent]

end Token

end ComplexCalculator
