import ComplexCalculator.Proofs.Lexeme.Scan

namespace ComplexCalculator.Lexeme

variable {c : Char} {rest behind : List Char} {lexeme : Lexeme}

def digitsJoining : Joining where
  member := isDigits
  combine first second := first ++ second
  closed := by
    intro first second left right
    simp_all [isDigits]
  assoc _ _ _ := List.append_assoc _ _ _

def isSign (lexeme : Lexeme) : Bool := lexeme == ['+'] || lexeme == ['-']

theorem isSign_iff {lexeme : Lexeme} :
    isSign lexeme = true ↔ lexeme = ['+'] ∨ lexeme = ['-'] := by
  simp [isSign]

def signsJoining : Joining where
  member := isSign
  combine first second := if first = second then ['+'] else ['-']
  closed := by
    intro first second _ _
    split <;> rfl
  assoc := by
    intro first second third left middle right
    rcases isSign_iff.mp left with rfl | rfl <;> rcases isSign_iff.mp middle with rfl | rfl <;>
      rcases isSign_iff.mp right with rfl | rfl <;> rfl

def digitRun : Run digitsJoining where
  inside := Char.isDigit
  value run := run
  value_single _ := rfl
  member_single c := by simp [digitsJoining, isDigits]
  value_cons := by
    intro c d run first others
    refine ⟨?_, rfl⟩
    simpa [digitsJoining, isDigits] using others

/-- The sign of a run of signs: a minus when the number of minus signs is odd. -/
def signOf (run : List Char) : Lexeme := if run.count '-' % 2 = 1 then ['-'] else ['+']

theorem isSign_signOf (run : List Char) : isSign (signOf run) = true := by
  unfold signOf
  split <;> rfl

theorem signOf_plus (run : List Char) : signOf ('+' :: run) = signOf run := by
  simp [signOf]

theorem signOf_minus (run : List Char) :
    signOf ('-' :: run) = if signOf run = ['-'] then ['+'] else ['-'] := by
  unfold signOf
  rw [List.count_cons_self]
  by_cases odd : run.count '-' % 2 = 1
  · have even : ¬ (run.count '-' + 1) % 2 = 1 := by omega
    simp [odd, even]
  · have next : (run.count '-' + 1) % 2 = 1 := by omega
    simp [odd, next]

def signRun : Run signsJoining where
  inside c := c == '+' || c == '-'
  value := signOf
  value_single := by
    intro c inside
    have sign : c = '+' ∨ c = '-' := by simpa using inside
    rcases sign with rfl | rfl <;> rfl
  member_single c := by simp [signsJoining, isSign]
  value_cons := by
    intro c d run inside _
    refine ⟨isSign_signOf _, ?_⟩
    have sign : c = '+' ∨ c = '-' := by simpa using inside
    rcases sign with rfl | rfl
    · rw [signOf_plus]
      rcases isSign_iff.mp (isSign_signOf (d :: run)) with value | value <;>
        simp [signsJoining, value]
    · rw [signOf_minus]
      rcases isSign_iff.mp (isSign_signOf (d :: run)) with value | value <;>
        simp [signsJoining, value]

/-- A longest run of digits; with a point or a comma and a digit behind it, a decimal, whose
decimals are again a longest run. -/
def number (c : Char) (rest : List Char) : Lexeme × List Char :=
  match rest.dropWhile Char.isDigit with
  | mark :: digit :: behind =>
      if (mark == '.' || mark == ',') && digit.isDigit then
        (c :: rest.takeWhile Char.isDigit ++ '.' :: digit :: behind.takeWhile Char.isDigit,
          behind.dropWhile Char.isDigit)
      else (c :: rest.takeWhile Char.isDigit, mark :: digit :: behind)
  | behind => (c :: rest.takeWhile Char.isDigit, behind)

theorem number_suffix (c : Char) (rest : List Char) : (number c rest).2 <:+ rest := by
  have dropped := List.dropWhile_suffix Char.isDigit (l := rest)
  unfold number
  split
  · rename_i mark digit behind front
    rw [front] at dropped
    split
    · exact (List.dropWhile_suffix _).trans
        (((List.suffix_cons digit behind).trans (List.suffix_cons mark _)).trans dropped)
    · exact dropped
  · exact dropped

theorem length_number_le (c : Char) (rest : List Char) :
    (number c rest).2.length ≤ rest.length :=
  (number_suffix c rest).length_le

def numberPattern : Pattern where
  begins := Char.isDigit
  take c rest := some (number c rest)
  shrinks := by
    intro c rest lexeme behind found
    have le := length_number_le c rest
    rw [Option.some.inj found] at le
    exact le

theorem numberPattern_fits : numberPattern.fits c rest = some (lexeme, behind) ↔
    c.isDigit = true ∧ number c rest = (lexeme, behind) := by
  simp [Pattern.fits_iff, numberPattern]

def piPattern : Pattern where
  begins c := c == 'π' || c == 'p'
  take
    | 'π', rest => some (piDigits, rest)
    | 'p', 'i' :: rest => some (piDigits, rest)
    | _, _ => none
  shrinks := by
    intro c rest lexeme behind found
    split at found <;> cases found <;> simp +arith

theorem piPattern_fits : piPattern.fits c rest = some (lexeme, behind) ↔
    (c = 'π' ∧ rest = behind ∨ c = 'p' ∧ rest = 'i' :: behind) ∧ lexeme = piDigits := by
  rw [Pattern.fits_iff]
  constructor
  · intro holds
    obtain ⟨-, taken⟩ := holds
    simp only [piPattern] at taken
    split at taken <;> cases taken <;> simp
  · intro holds
    rcases holds with ⟨⟨rfl, rfl⟩ | ⟨rfl, rfl⟩, rfl⟩ <;> exact ⟨rfl, rfl⟩

def signsPattern : Pattern := signRun.pattern

theorem isSign_of_fits (fitting : signsPattern.fits c rest = some (lexeme, behind)) :
    isSign lexeme = true := by
  obtain ⟨-, taken⟩ := Pattern.fits_iff.mp fitting
  cases taken
  exact isSign_signOf _

/-- The exponential. In `expi` the last two letters are the name of π. -/
def expPattern : Pattern where
  begins c := c == 'e'
  take
    | _, 'x' :: 'p' :: 'i' :: _ => none
    | _, 'x' :: 'p' :: rest => some (['e', 'x', 'p'], rest)
    | _, '^' :: rest => some (['e', 'x', 'p'], rest)
    | _, '*' :: '*' :: rest => some (['e', 'x', 'p'], rest)
    | _, _ => none
  shrinks := by
    intro c rest lexeme behind found
    split at found <;> cases found <;> simp +arith

theorem expPattern_fits : expPattern.fits c rest = some (lexeme, behind) ↔
    c = 'e' ∧ lexeme = ['e', 'x', 'p'] ∧
      (rest = 'x' :: 'p' :: behind ∧ behind.head? ≠ some 'i' ∨ rest = '^' :: behind ∨
        rest = '*' :: '*' :: behind) := by
  rw [Pattern.fits_iff]
  constructor
  · intro holds
    obtain ⟨begins, taken⟩ := holds
    refine ⟨by simpa [expPattern] using begins, ?_⟩
    simp only [expPattern] at taken
    split at taken
    · contradiction
    · rename_i behind other
      cases taken
      refine ⟨rfl, .inl ⟨rfl, fun front => ?_⟩⟩
      obtain ⟨more, rfl⟩ := List.head?_eq_some_iff.mp front
      exact other more rfl
    · cases taken
      simp
    · cases taken
      simp
    · contradiction
  · intro holds
    rcases holds with ⟨rfl, rfl, ⟨rfl, other⟩ | rfl | rfl⟩
    · cases behind with
      | nil => exact ⟨rfl, rfl⟩
      | cons d tail =>
          have free : d ≠ 'i' := by simpa using other
          exact ⟨rfl, by simp [expPattern, free]⟩
    · exact ⟨rfl, rfl⟩
    · exact ⟨rfl, rfl⟩

def lnPattern : Pattern where
  begins c := c == 'l'
  take
    | _, 'o' :: 'g' :: rest => some (['l', 'n'], rest)
    | _, 'n' :: rest => some (['l', 'n'], rest)
    | _, _ => none
  shrinks := by
    intro c rest lexeme behind found
    split at found <;> cases found <;> simp +arith

theorem lnPattern_fits : lnPattern.fits c rest = some (lexeme, behind) ↔
    c = 'l' ∧ lexeme = ['l', 'n'] ∧ (rest = 'o' :: 'g' :: behind ∨ rest = 'n' :: behind) := by
  rw [Pattern.fits_iff]
  constructor
  · intro holds
    obtain ⟨begins, taken⟩ := holds
    refine ⟨by simpa [lnPattern] using begins, ?_⟩
    simp only [lnPattern] at taken
    split at taken <;> cases taken <;> simp
  · intro holds
    rcases holds with ⟨rfl, rfl, rfl | rfl⟩ <;> exact ⟨rfl, rfl⟩

def caretPattern : Pattern where
  begins c := c == '*'
  take
    | _, '*' :: rest => some (['^'], rest)
    | _, _ => none
  shrinks := by
    intro c rest lexeme behind found
    split at found <;> cases found
    simp +arith

theorem caretPattern_fits : caretPattern.fits c rest = some (lexeme, behind) ↔
    c = '*' ∧ rest = '*' :: behind ∧ lexeme = ['^'] := by
  rw [Pattern.fits_iff]
  constructor
  · intro holds
    obtain ⟨begins, taken⟩ := holds
    simp only [caretPattern] at begins taken
    split at taken <;> cases taken
    exact ⟨by simpa using begins, rfl, rfl⟩
  · intro holds
    obtain ⟨rfl, rfl, rfl⟩ := holds
    exact ⟨rfl, rfl⟩

def unitPattern : Pattern where
  begins c := c == 'i' || c == 'j'
  take _ rest := some (['j'], rest)
  shrinks := by
    intro c rest lexeme behind found
    cases found
    exact Nat.le_refl _

theorem unitPattern_fits : unitPattern.fits c rest = some (lexeme, behind) ↔
    (c = 'i' ∨ c = 'j') ∧ rest = behind ∧ lexeme = ['j'] := by
  simp [Pattern.fits_iff, unitPattern, eq_comm (a := lexeme), and_comm]

/-- The patterns, in the order in which they are tried. -/
def wordPatterns : List Pattern :=
  [numberPattern, piPattern, signsPattern, expPattern, lnPattern, caretPattern, unitPattern]

end ComplexCalculator.Lexeme
