import ComplexCalculator.Proofs.Lexeme.Patterns

namespace ComplexCalculator.Lexeme

variable {c x : Char} {rest : List Char} {lexemes : List Lexeme}

section Settling

theorem digitsRule_joins : digitsJoining.Joins digitsRule := by
  intro lexemes
  unfold digitsRule
  split
  · rename_i first second rest
    split
    · rename_i both
      obtain ⟨left, right⟩ := Bool.and_eq_true_iff.mp both
      exact .inr ⟨first, second, rest, rfl, left, right, rfl⟩
    · exact .inl rfl
  · exact .inl rfl

theorem minusRule_joins : signsJoining.Joins minusRule := by
  intro lexemes
  unfold minusRule
  split
  · exact .inr ⟨_, _, _, rfl, rfl, rfl, rfl⟩
  · exact .inr ⟨_, _, _, rfl, rfl, rfl, rfl⟩
  · exact .inl rfl

theorem plusRule_joins : signsJoining.Joins plusRule := by
  intro lexemes
  unfold plusRule
  split
  · exact .inr ⟨_, _, _, rfl, rfl, rfl, rfl⟩
  · exact .inr ⟨_, _, _, rfl, rfl, rfl, rfl⟩
  · exact .inl rfl

theorem digits_apart (missed : ∀ suffix, suffix <:+ lexemes → digitsRule suffix = none) :
    digitsJoining.Apart lexemes := by
  intro first second rest within
  have misses := missed _ within
  simpa [digitsRule, digitsJoining] using misses

theorem signs_apart (minusMissed : ∀ suffix, suffix <:+ lexemes → minusRule suffix = none)
    (plusMissed : ∀ suffix, suffix <:+ lexemes → plusRule suffix = none) :
    signsJoining.Apart lexemes := by
  intro first second rest within
  have minusMisses := minusMissed _ within
  have plusMisses := plusMissed _ within
  cases left : isSign first with
  | false => simp [signsJoining, left]
  | true =>
      cases right : isSign second with
      | false => simp [signsJoining, right]
      | true =>
          rcases isSign_iff.mp left with rfl | rfl <;> rcases isSign_iff.mp right with rfl | rfl
          · simp [plusRule] at plusMisses
          · simp [minusRule] at minusMisses
          · simp [minusRule] at minusMisses
          · simp [plusRule] at plusMisses

theorem untilStable_digits (lexemes : List Lexeme) :
    untilStable (replace digitsRule) lexemes = digitsJoining.merge lexemes := by
  refine Joining.settle_eq_merge (Joining.merge_replace digitsRule_joins) ?_ ?_ (Nat.le_refl _)
  · intro lexemes changed
    refine Nat.lt_of_le_of_ne (Joining.length_replace_le digitsRule_joins lexemes) fun same => ?_
    exact changed (Joining.misses_of_length_replace digitsRule_joins same).1
  · intro lexemes unchanged
    exact digits_apart
      (Joining.misses_of_length_replace digitsRule_joins (congrArg List.length unchanged)).2

def signsPass (lexemes : List Lexeme) : List Lexeme :=
  replace plusRule (replace minusRule lexemes)

theorem misses_of_length_signsPass (same : (signsPass lexemes).length = lexemes.length) :
    signsPass lexemes = lexemes ∧ signsJoining.Apart lexemes := by
  have minusShorter := Joining.length_replace_le minusRule_joins lexemes
  have plusShorter := Joining.length_replace_le plusRule_joins (replace minusRule lexemes)
  unfold signsPass at same ⊢
  have kept : (replace minusRule lexemes).length = lexemes.length := by omega
  obtain ⟨minusIdle, minusMissed⟩ := Joining.misses_of_length_replace minusRule_joins kept
  rw [minusIdle] at same ⊢
  obtain ⟨plusIdle, plusMissed⟩ := Joining.misses_of_length_replace plusRule_joins same
  exact ⟨plusIdle, signs_apart minusMissed plusMissed⟩

theorem untilStable_signs (lexemes : List Lexeme) :
    untilStable signsPass lexemes = signsJoining.merge lexemes := by
  refine Joining.settle_eq_merge ?_ ?_ ?_ (Nat.le_refl _)
  · intro lexemes
    rw [signsPass, Joining.merge_replace plusRule_joins, Joining.merge_replace minusRule_joins]
  · intro lexemes changed
    have minusShorter := Joining.length_replace_le minusRule_joins lexemes
    have plusShorter := Joining.length_replace_le plusRule_joins (replace minusRule lexemes)
    refine Nat.lt_of_le_of_ne (Nat.le_trans plusShorter minusShorter) fun same => ?_
    exact changed (misses_of_length_signsPass same).1
  · intro lexemes unchanged
    exact (misses_of_length_signsPass (congrArg List.length unchanged)).2

end Settling

section Avoiding

/-- A character that is its own lexeme only where it stands alone in the text. -/
def isPlain (c : Char) : Bool := !c.isDigit && !(c == '+' || c == '-' || c == '^' || c == 'j')

theorem number_eq_cons (c : Char) (rest : List Char) :
    ∃ more, (number c rest).1 = c :: more := by
  unfold number
  split
  · split
    · exact ⟨_, rfl⟩
    · exact ⟨_, rfl⟩
  · exact ⟨_, rfl⟩

/-- What the patterns make of a text, as far as one lexeme shows. -/
theorem fits_cases {pattern : Pattern} (member : pattern ∈ wordPatterns) {lexeme : Lexeme}
    {behind : List Char} (fitting : pattern.fits c rest = some (lexeme, behind)) :
    (c.isDigit = true ∧ ∃ more, lexeme = c :: more) ∨
      (isSign lexeme = true ∧ isSign [c] = true) ∨
      (lexeme = ['^'] ∧ c = '*' ∧ rest = '*' :: behind) ∨
      lexeme ∈ [piDigits, ['e', 'x', 'p'], ['l', 'n'], ['j']] := by
  simp only [wordPatterns, List.mem_cons, List.not_mem_nil, or_false] at member
  rcases member with rfl | rfl | rfl | rfl | rfl | rfl | rfl
  · obtain ⟨digit, found⟩ := numberPattern_fits.mp fitting
    obtain ⟨more, same⟩ := number_eq_cons c rest
    exact .inl ⟨digit, more, by rw [← same, found]⟩
  · obtain ⟨-, rfl⟩ := piPattern_fits.mp fitting
    simp
  · have sign : isSign [c] = true := (signRun.member_single c).trans (Pattern.begins_of_fits fitting)
    exact .inr (.inl ⟨isSign_of_fits fitting, sign⟩)
  · obtain ⟨-, rfl, -⟩ := expPattern_fits.mp fitting
    simp
  · obtain ⟨-, rfl, -⟩ := lnPattern_fits.mp fitting
    simp
  · obtain ⟨star, second, rfl⟩ := caretPattern_fits.mp fitting
    exact .inr (.inr (.inl ⟨rfl, star, second⟩))
  · obtain ⟨-, -, rfl⟩ := unitPattern_fits.mp fitting
    simp

theorem isSign_cons_digit (digit : c.isDigit = true) (more : Lexeme) :
    isSign (c :: more) = false := by
  cases sign : isSign (c :: more) with
  | false => rfl
  | true =>
      rcases isSign_iff.mp sign with same | same
      · obtain ⟨rfl, -⟩ := List.cons.inj same
        contradiction
      · obtain ⟨rfl, -⟩ := List.cons.inj same
        contradiction

theorem avoids_of_plain (plain : isPlain x = true) {patterns : List Pattern}
    (known : patterns ⊆ wordPatterns) : ∀ pattern ∈ patterns, pattern.Avoids x := by
  intro pattern member c rest lexeme behind fitting same
  subst same
  rcases fits_cases (known member) fitting with ⟨digit, more, front⟩ | ⟨sign, -⟩ | ⟨caret, -⟩ | listed
  · obtain ⟨rfl, _⟩ := List.cons.inj front
    simp [isPlain, digit] at plain
  · rcases isSign_iff.mp sign with same | same <;> cases same <;> contradiction
  · cases caret
    contradiction
  · have unit : x = 'j' := by simpa [piDigits] using listed
    subst unit
    contradiction

theorem scan_eq_plain {patterns : List Pattern} (known : patterns ⊆ wordPatterns)
    (plain : isPlain x = true) {text : List Char} {more : List Lexeme}
    (cut : scan patterns text = [x] :: more) :
    ∃ rest, text = x :: rest ∧ more = scan patterns rest :=
  scan_eq_single (avoids_of_plain plain known) cut

theorem scan_eq_plain_pair {patterns : List Pattern} (known : patterns ⊆ wordPatterns)
    {y : Char} (first : isPlain x = true) (second : isPlain y = true) {more : List Lexeme}
    (cut : scan patterns (c :: rest) = [x] :: [y] :: more) :
    c = x ∧ ∃ behind, rest = y :: behind ∧ more = scan patterns behind := by
  obtain ⟨behind, same, cut⟩ := scan_eq_plain known first cut
  obtain ⟨rfl, rfl⟩ := List.cons.inj same
  exact ⟨rfl, scan_eq_plain known second cut.symm⟩

theorem scan_eq_caret {patterns : List Pattern} (known : patterns ⊆ wordPatterns)
    {text : List Char} {more : List Lexeme} (cut : scan patterns text = ['^'] :: more) :
    ∃ behind, text = '^' :: behind ∨ text = '*' :: '*' :: behind := by
  cases text with
  | nil => simp at cut
  | cons c rest =>
      rw [scan_cons] at cut
      obtain ⟨first, -⟩ := List.cons.inj cut
      rcases next_cases patterns c rest with ⟨pattern, member, fitting⟩ | alone
      · clear cut
        generalize next patterns c rest = result at first fitting
        obtain ⟨lexeme, behind⟩ := result
        obtain rfl : lexeme = ['^'] := first
        rcases fits_cases (known member) fitting with
          ⟨digit, more, front⟩ | ⟨sign, -⟩ | ⟨-, rfl, rfl⟩ | listed
        · obtain ⟨rfl, -⟩ := List.cons.inj front
          contradiction
        · contradiction
        · exact ⟨behind, .inr rfl⟩
        · simp [piDigits] at listed
      · rw [alone] at first
        obtain ⟨rfl, -⟩ := List.cons.inj first
        exact ⟨rest, .inl rfl⟩

/-- A letter that begins the name of π in some texts, but not before another letter. -/
theorem next_letter_p {patterns : List Pattern} {behind : List Char}
    (known : patterns ⊆ wordPatterns) (free : behind.head? ≠ some 'i') :
    next patterns 'p' behind = (['p'], behind) := by
  refine next_of_no_fit fun pattern member => ?_
  have listed := known member
  simp only [wordPatterns, List.mem_cons, List.not_mem_nil, or_false] at listed
  rcases listed with rfl | rfl | rfl | rfl | rfl | rfl | rfl
  · rfl
  · refine Option.eq_none_iff_forall_ne_some.mpr fun (lexeme, left) fitting => ?_
    obtain ⟨⟨impossible, -⟩ | ⟨-, rfl⟩, -⟩ := piPattern_fits.mp fitting
    · exact absurd impossible (by decide)
    · exact free rfl
  all_goals rfl

end Avoiding

section Passes

theorem scan_digits (text : List Char) :
    untilStable (replace digitsRule) (scan [] text) = scan [digitRun.pattern] text := by
  rw [untilStable_digits]
  exact merge_scan _ [] [] (by simp) (by simp) text

theorem next_digits (digit : c.isDigit = true) :
    next [digitRun.pattern] c rest =
      (c :: rest.takeWhile Char.isDigit, rest.dropWhile Char.isDigit) := by
  simp [next, Pattern.fits, Run.pattern, digitRun, digit]

theorem scan_digits_cons (digit : c.isDigit = true) :
    scan [digitRun.pattern] (c :: rest) =
      (c :: rest.takeWhile Char.isDigit) ::
        scan [digitRun.pattern] (rest.dropWhile Char.isDigit) :=
  scan_cons_of_next (next_digits digit)

theorem scan_digits_cons_other (other : c.isDigit = false) :
    scan [digitRun.pattern] (c :: rest) = [c] :: scan [digitRun.pattern] rest :=
  scan_cons_plain (by simpa [Run.pattern, digitRun] using other)

theorem isDigits_single (c : Char) : isDigits [c] = c.isDigit := by simp [isDigits]

theorem isDigits_run (digit : c.isDigit = true) (rest : List Char) :
    isDigits (c :: rest.takeWhile Char.isDigit) = true := by
  simp [isDigits, digit, List.all_takeWhile]

theorem replace_decimals (text : List Char) :
    replace decimalRule (scan [digitRun.pattern] text) = scan [numberPattern] text := by
  refine replace_scan (fun c rest => ?_) text
  cases digit : c.isDigit with
  | false =>
      have misses : decimalRule (scan [digitRun.pattern] (c :: rest)) = none := by
        rw [scan_digits_cons_other digit]
        unfold decimalRule
        split
        · rename_i found
          obtain ⟨rfl, _⟩ := List.cons.inj found
          simp [isDigits_single, digit]
        · rfl
      refine .inl ⟨misses, ?_⟩
      simp [next, Pattern.fits, numberPattern, Run.pattern, digitRun, digit]
  | true =>
      have whole := isDigits_run digit rest
      have found : next [numberPattern] c rest = number c rest := by
        simp [next, Pattern.fits, numberPattern, digit]
      rw [found, next_digits digit, scan_digits_cons digit]
      have bare := List.head?_dropWhile_not Char.isDigit rest
      unfold number
      cases left : rest.dropWhile Char.isDigit with
      | nil => exact .inl ⟨by simp [decimalRule], rfl⟩
      | cons mark behind =>
          have notDigit : mark.isDigit = false := by simpa [left] using bare
          rw [scan_digits_cons_other notDigit]
          cases behind with
          | nil => exact .inl ⟨by simp [decimalRule], rfl⟩
          | cons d behind =>
              cases decimal : d.isDigit with
              | false =>
                  rw [scan_digits_cons_other decimal]
                  refine .inl ⟨?_, by simp [decimal]⟩
                  simp [decimalRule, isDigits_single, decimal]
              | true =>
                  rw [scan_digits_cons decimal]
                  have decimals := isDigits_run decimal behind
                  by_cases marked : mark = '.' ∨ mark = ','
                  · refine .inr ⟨c :: rest.takeWhile Char.isDigit ++
                        '.' :: d :: behind.takeWhile Char.isDigit, 2, _, ?_, ?_, rfl⟩
                    · simp [decimalRule, whole, decimals, marked]
                    · simp [marked, decimal]
                  · refine .inl ⟨?_, by simp [marked, decimal]⟩
                    simp [decimalRule, marked]

theorem replace_carets (text : List Char) :
    replace caretRule (scan [numberPattern] text) = scan [numberPattern, caretPattern] text := by
  have known : [numberPattern] ⊆ wordPatterns := by simp [wordPatterns]
  refine replace_insert [numberPattern] [] ?_ ?_ ?_ text
  · intro other member c begins
    obtain rfl : c = '*' := by simpa [caretPattern] using begins
    obtain rfl := List.mem_singleton.mp member
    rfl
  · intro c rest lexeme behind fitting
    obtain ⟨rfl, rfl, rfl⟩ := caretPattern_fits.mp fitting
    refine .inr ⟨1, ?_⟩
    rw [List.append_nil, scan_cons_plain (by decide), scan_cons_plain (by decide)]
    exact ⟨rfl, rfl⟩
  · intro c rest missed
    unfold caretRule
    split
    · rename_i cut
      obtain ⟨rfl, behind, rfl, -⟩ := scan_eq_plain_pair known rfl rfl cut
      exact absurd (caretPattern_fits.mpr ⟨rfl, rfl, rfl⟩) (missed _ _)
    · rfl

theorem replace_pi (text : List Char) :
    replace piRule (scan [numberPattern, caretPattern] text) =
      scan [numberPattern, piPattern, caretPattern] text := by
  have known : [numberPattern, caretPattern] ⊆ wordPatterns := by simp [wordPatterns]
  refine replace_insert [numberPattern] [caretPattern] ?_ ?_ ?_ text
  · intro other member c begins
    obtain rfl := List.mem_singleton.mp member
    have letter : c = 'π' ∨ c = 'p' := by simpa [piPattern] using begins
    rcases letter with rfl | rfl <;> rfl
  · intro c rest lexeme behind fitting
    obtain ⟨⟨rfl, rfl⟩ | ⟨rfl, rfl⟩, rfl⟩ := piPattern_fits.mp fitting
    · refine .inr ⟨0, ?_⟩
      rw [scan_cons_plain (by decide)]
      exact ⟨rfl, rfl⟩
    · refine .inr ⟨1, ?_⟩
      rw [scan_cons_plain (by decide), scan_cons_plain (by decide)]
      exact ⟨rfl, rfl⟩
  · intro c rest missed
    unfold piRule
    split
    · rename_i cut
      obtain ⟨behind, same, -⟩ := scan_eq_plain known rfl cut
      obtain ⟨rfl, rfl⟩ := List.cons.inj same
      exact absurd (piPattern_fits.mpr ⟨.inl ⟨rfl, rfl⟩, rfl⟩) (missed _ _)
    · rename_i cut
      obtain ⟨rfl, behind, rfl, -⟩ := scan_eq_plain_pair known rfl rfl cut
      exact absurd (piPattern_fits.mpr ⟨.inr ⟨rfl, rfl⟩, rfl⟩) (missed _ _)
    · rfl

theorem replace_units (text : List Char) :
    replace imaginaryRule (scan [numberPattern, piPattern, caretPattern] text) =
      scan [numberPattern, piPattern, caretPattern, unitPattern] text := by
  have known : [numberPattern, piPattern, caretPattern] ⊆ wordPatterns := by simp [wordPatterns]
  refine replace_insert [numberPattern, piPattern, caretPattern] [] ?_ ?_ ?_ text
  · intro other member c begins
    have letter : c = 'i' ∨ c = 'j' := by simpa [unitPattern] using begins
    rcases letter with rfl | rfl
    · revert other
      decide
    · revert other
      decide
  · intro c rest lexeme behind fitting
    obtain ⟨rfl | rfl, rfl, rfl⟩ := unitPattern_fits.mp fitting
    · refine .inr ⟨0, ?_⟩
      rw [List.append_nil, scan_cons_plain (by decide)]
      exact ⟨rfl, rfl⟩
    · refine .inl ⟨?_, ?_⟩
      · rw [List.append_nil, scan_cons_plain (by decide)]
        rfl
      · exact next_of_no_fit fun pattern member =>
          Pattern.fits_eq_none _ (by revert pattern; decide)
  · intro c rest missed
    unfold imaginaryRule
    split
    · rename_i cut
      obtain ⟨behind, same, -⟩ := scan_eq_plain known rfl cut
      obtain ⟨rfl, rfl⟩ := List.cons.inj same
      exact absurd (unitPattern_fits.mpr ⟨.inl rfl, rfl, rfl⟩) (missed _ _)
    · rfl

/-- Among words, joining all neighbouring signs is the pattern of signs. -/
theorem merge_scan_signs (before after : List Pattern) (known : before ++ after ⊆ wordPatterns)
    (elsewhere : ∀ pattern ∈ before ++ after,
      pattern.begins '+' = false ∧ pattern.begins '-' = false)
    (text : List Char) :
    signsJoining.merge (scan (before ++ after) text) =
      scan (before ++ signsPattern :: after) text := by
  have foreign : ∀ pattern ∈ before ++ after, ∀ c, signRun.inside c = true →
      pattern.begins c = false := by
    intro pattern member c inside
    have sign : c = '+' ∨ c = '-' := by simpa [signRun] using inside
    rcases sign with rfl | rfl
    · exact (elsewhere pattern member).1
    · exact (elsewhere pattern member).2
  refine merge_scan signRun before after ?_ ?_ text
  · exact fun other member => foreign other (List.mem_append_left after member)
  · intro pattern member
    refine ⟨foreign pattern member, fun {c rest lexeme behind} fitting => ?_⟩
    have begins := Pattern.begins_of_fits fitting
    rcases fits_cases (known member) fitting with
      ⟨digit, more, rfl⟩ | ⟨-, sign⟩ | ⟨rfl, -⟩ | listed
    · exact isSign_cons_digit digit more
    · rw [foreign pattern member c ((signRun.member_single c).symm.trans sign)] at begins
      contradiction
    · rfl
    · clear fitting
      revert lexeme
      decide

theorem scan_signs (text : List Char) :
    untilStable signsPass (scan [numberPattern, piPattern, caretPattern, unitPattern] text) =
      scan [numberPattern, piPattern, signsPattern, caretPattern, unitPattern] text := by
  have known : [numberPattern, piPattern, caretPattern, unitPattern] ⊆ wordPatterns := by
    simp [wordPatterns]
  rw [untilStable_signs]
  exact merge_scan_signs [numberPattern, piPattern] [caretPattern, unitPattern] known (by decide)
    text

theorem replace_exp (text : List Char) :
    replace expRule (scan [numberPattern, piPattern, signsPattern, caretPattern, unitPattern] text) =
      scan [numberPattern, piPattern, signsPattern, expPattern, caretPattern, unitPattern] text := by
  have known : [numberPattern, piPattern, signsPattern, caretPattern, unitPattern] ⊆
      wordPatterns := by simp [wordPatterns]
  refine replace_insert [numberPattern, piPattern, signsPattern] [caretPattern, unitPattern]
    ?_ ?_ ?_ text
  · intro other member c begins
    obtain rfl : c = 'e' := by simpa [expPattern] using begins
    revert other
    decide
  · intro c rest lexeme behind fitting
    obtain ⟨rfl, rfl, ⟨rfl, free⟩ | rfl | rfl⟩ := expPattern_fits.mp fitting
    · refine .inr ⟨2, ?_⟩
      rw [scan_cons_plain (by decide), scan_cons_plain (by decide)]
      simp only [List.cons_append, List.nil_append]
      rw [scan_cons_of_next (next_letter_p known free)]
      exact ⟨rfl, rfl⟩
    · refine .inr ⟨1, ?_⟩
      rw [scan_cons_plain (by decide), scan_cons_plain (by decide)]
      exact ⟨rfl, rfl⟩
    · have caret : next [numberPattern, piPattern, signsPattern, caretPattern, unitPattern]
          '*' ('*' :: behind) = (['^'], behind) := rfl
      refine .inr ⟨1, ?_⟩
      rw [scan_cons_plain (by decide)]
      simp only [List.cons_append, List.nil_append]
      rw [scan_cons_of_next caret]
      exact ⟨rfl, rfl⟩
  · intro c rest missed
    unfold expRule
    split
    · rename_i cut
      obtain ⟨rfl, behind, rfl, third⟩ := scan_eq_plain_pair known rfl rfl cut
      obtain ⟨behind, rfl, -⟩ := scan_eq_plain known rfl third.symm
      refine absurd (expPattern_fits.mpr ⟨rfl, rfl, .inl ⟨rfl, fun front => ?_⟩⟩) (missed _ _)
      obtain ⟨more, rfl⟩ := List.head?_eq_some_iff.mp front
      have pi : next [numberPattern, piPattern, signsPattern, caretPattern, unitPattern]
          'p' ('i' :: more) = (piDigits, more) := rfl
      rw [scan_cons_of_next pi] at third
      simp [piDigits] at third
    · rename_i cut
      obtain ⟨behind, same, second⟩ := scan_eq_plain known rfl cut
      obtain ⟨rfl, rfl⟩ := List.cons.inj same
      obtain ⟨front, same | same⟩ := scan_eq_caret known second.symm
      · exact absurd (expPattern_fits.mpr ⟨rfl, rfl, .inr (.inl same)⟩) (missed _ _)
      · exact absurd (expPattern_fits.mpr ⟨rfl, rfl, .inr (.inr same)⟩) (missed _ _)
    · rfl

theorem replace_ln (text : List Char) :
    replace lnRule
        (scan [numberPattern, piPattern, signsPattern, expPattern, caretPattern, unitPattern] text) =
      scan wordPatterns text := by
  have known : [numberPattern, piPattern, signsPattern, expPattern, caretPattern, unitPattern] ⊆
      wordPatterns := by simp [wordPatterns]
  refine replace_insert [numberPattern, piPattern, signsPattern, expPattern]
    [caretPattern, unitPattern] ?_ ?_ ?_ text
  · intro other member c begins
    obtain rfl : c = 'l' := by simpa [lnPattern] using begins
    revert other
    decide
  · intro c rest lexeme behind fitting
    obtain ⟨rfl, rfl, rfl | rfl⟩ := lnPattern_fits.mp fitting
    · refine .inr ⟨2, ?_⟩
      rw [scan_cons_plain (by decide), scan_cons_plain (by decide), scan_cons_plain (by decide)]
      exact ⟨rfl, rfl⟩
    · refine .inr ⟨1, ?_⟩
      rw [scan_cons_plain (by decide), scan_cons_plain (by decide)]
      exact ⟨rfl, rfl⟩
  · intro c rest missed
    unfold lnRule
    split
    · rename_i cut
      obtain ⟨rfl, behind, rfl, third⟩ := scan_eq_plain_pair known rfl rfl cut
      obtain ⟨behind, rfl, -⟩ := scan_eq_plain known rfl third.symm
      exact absurd (lnPattern_fits.mpr ⟨rfl, rfl, .inl rfl⟩) (missed _ _)
    · rename_i cut
      obtain ⟨rfl, behind, rfl, -⟩ := scan_eq_plain_pair known rfl rfl cut
      exact absurd (lnPattern_fits.mpr ⟨rfl, rfl, .inr rfl⟩) (missed _ _)
    · rfl

theorem join_eq_scan (text : List Char) :
    join (text.map fun c => [c]) = scan wordPatterns text := by
  rw [← scan_no_patterns]
  have signs : (fun signs => replace plusRule (replace minusRule signs)) = signsPass := rfl
  simp only [join, signs, scan_digits, replace_decimals, replace_carets, replace_pi, replace_units,
    scan_signs, replace_exp, replace_ln]

end Passes

section Folding

/-- Replaces each longest run of folded white space by one space. -/
def foldRuns : List Char → List Char
  | [] => []
  | c :: rest =>
      if isFolded c then ' ' :: foldRuns (rest.dropWhile isFolded)
      else c :: foldRuns rest
termination_by text => text.length
decreasing_by
  · exact Nat.lt_succ_of_le (length_dropWhile_le isFolded rest)
  · exact Nat.lt_succ_self _

theorem foldSpaces_pending (text : List Char) :
    foldSpaces true text = foldSpaces false (text.dropWhile isFolded) := by
  induction text with
  | nil => rfl
  | cons c rest ih =>
      cases white : isFolded c with
      | false => simp [foldSpaces, white]
      | true => simp [foldSpaces, white, ih]

theorem foldSpaces_eq_foldRuns (text : List Char) : foldSpaces false text = foldRuns text := by
  induction text using foldRuns.induct with
  | case1 => simp [foldSpaces, foldRuns]
  | case2 c rest white ih => simp [foldSpaces, foldRuns, white, foldSpaces_pending, ih]
  | case3 c rest other ih => simp [foldSpaces, foldRuns, other, ih]

end Folding

/-- The lexemes of a text are those of one scan, from left to right, over its characters in
lower case, without unit separators and with each run of white space folded. -/
theorem ofText_eq_scan (text : String) :
    ofText text =
      scan wordPatterns
        (foldRuns ((Text.lowercase text.toList).filter (· != unitSeparator))) := by
  rw [ofText, join_eq_scan, prepare, foldSpaces_eq_foldRuns]

end ComplexCalculator.Lexeme
