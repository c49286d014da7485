import ComplexCalculator.Proofs.Lexeme.Merging

namespace ComplexCalculator.Lexeme

/-- What the scan looks for: the characters that may begin it, the lexeme that it makes of such
a character and those behind it, and what is left. -/
structure Pattern where
  begins : Char → Bool
  take : Char → List Char → Option (Lexeme × List Char)
  shrinks : ∀ {c rest lexeme behind}, take c rest = some (lexeme, behind) →
    behind.length ≤ rest.length

namespace Pattern

def fits (pattern : Pattern) (c : Char) (rest : List Char) : Option (Lexeme × List Char) :=
  if pattern.begins c then pattern.take c rest else none

def Avoids (pattern : Pattern) (x : Char) : Prop :=
  ∀ {c rest lexeme behind}, pattern.fits c rest = some (lexeme, behind) → lexeme ≠ [x]

theorem fits_iff {pattern : Pattern} {c : Char} {rest : List Char}
    {result : Lexeme × List Char} : pattern.fits c rest = some result ↔
      pattern.begins c = true ∧ pattern.take c rest = some result := by
  unfold fits
  split <;> simp_all

theorem begins_of_fits {pattern : Pattern} {c : Char} {rest : List Char}
    {result : Lexeme × List Char} (fitting : pattern.fits c rest = some result) :
    pattern.begins c = true :=
  (fits_iff.mp fitting).1

theorem fits_eq_none {pattern : Pattern} {c : Char} (rest : List Char)
    (elsewhere : pattern.begins c = false) : pattern.fits c rest = none := by
  simp [fits, elsewhere]

end Pattern

/-- The first pattern that fits. A character that no pattern fits is a lexeme of its own. -/
def next (patterns : List Pattern) (c : Char) (rest : List Char) : Lexeme × List Char :=
  (patterns.findSome? (·.fits c rest)).getD ([c], rest)

variable {patterns old : List Pattern} {c x : Char} {rest : List Char}

theorem next_cases (patterns : List Pattern) (c : Char) (rest : List Char) :
    (∃ pattern ∈ patterns, pattern.fits c rest = some (next patterns c rest)) ∨
      next patterns c rest = ([c], rest) := by
  unfold next
  cases found : patterns.findSome? (·.fits c rest) with
  | none => exact .inr rfl
  | some result =>
      obtain ⟨pattern, member, fitting⟩ := List.exists_of_findSome?_eq_some found
      exact .inl ⟨pattern, member, fitting⟩

theorem next_shrinks (patterns : List Pattern) (c : Char) (rest : List Char) :
    (next patterns c rest).2.length ≤ rest.length := by
  rcases next_cases patterns c rest with ⟨pattern, _, fitting⟩ | alone
  · exact pattern.shrinks (Pattern.fits_iff.mp fitting).2
  · exact Nat.le_of_eq (congrArg (fun cut => cut.2.length) alone)

def scan (patterns : List Pattern) : List Char → List Lexeme
  | [] => []
  | c :: rest => (next patterns c rest).1 :: scan patterns (next patterns c rest).2
termination_by text => text.length
decreasing_by exact Nat.lt_succ_of_le (next_shrinks patterns c rest)

@[simp] theorem scan_nil (patterns : List Pattern) : scan patterns [] = [] := by
  rw [scan]

theorem scan_cons (patterns : List Pattern) (c : Char) (rest : List Char) :
    scan patterns (c :: rest) =
      (next patterns c rest).1 :: scan patterns (next patterns c rest).2 := by
  rw [scan]

theorem scan_cons_of_next {lexeme : Lexeme} {behind : List Char}
    (found : next patterns c rest = (lexeme, behind)) :
    scan patterns (c :: rest) = lexeme :: scan patterns behind := by
  rw [scan_cons, found]

theorem scan_no_patterns (text : List Char) : scan [] text = text.map fun c => [c] := by
  induction text with
  | nil => exact scan_nil []
  | cons c rest ih =>
      have single : next [] c rest = ([c], rest) := rfl
      rw [scan_cons_of_next single, ih, List.map_cons]

theorem scan_eq_single {text : List Char} {more : List Lexeme}
    (avoids : ∀ pattern ∈ patterns, pattern.Avoids x) (cut : scan patterns text = [x] :: more) :
    ∃ rest, text = x :: rest ∧ more = scan patterns rest := by
  cases text with
  | nil => simp at cut
  | cons c rest =>
      rw [scan_cons] at cut
      obtain ⟨first, others⟩ := List.cons.inj cut
      rcases next_cases patterns c rest with ⟨pattern, member, fitting⟩ | alone
      · exact absurd first (avoids pattern member fitting)
      · rw [alone] at first others
        obtain ⟨rfl, _⟩ := List.cons.inj first
        exact ⟨rest, rfl, others.symm⟩

theorem next_of_no_fit (misses : ∀ pattern ∈ patterns, pattern.fits c rest = none) :
    next patterns c rest = ([c], rest) := by
  have nothing : patterns.findSome? (·.fits c rest) = none := by
    simpa [List.findSome?_eq_none_iff] using misses
  simp [next, nothing]

theorem scan_cons_plain (outside : ∀ pattern ∈ patterns, pattern.begins c = false) :
    scan patterns (c :: rest) = [c] :: scan patterns rest :=
  scan_cons_of_next <|
    next_of_no_fit fun pattern member => Pattern.fits_eq_none rest (outside pattern member)

section Insertion

variable {before : List Pattern} (after : List Pattern) {pattern : Pattern}

theorem next_insert_none (misses : pattern.fits c rest = none) :
    next (before ++ pattern :: after) c rest = next (before ++ after) c rest := by
  simp [next, List.findSome?_append, misses]

theorem next_insert_some {result : Lexeme × List Char}
    (disjoint : ∀ other ∈ before, ∀ c, pattern.begins c = true → other.begins c = false)
    (fitting : pattern.fits c rest = some result) :
    next (before ++ pattern :: after) c rest = result := by
  have begins := Pattern.begins_of_fits fitting
  have nothing : before.findSome? (·.fits c rest) = none := by
    simp only [List.findSome?_eq_none_iff]
    exact fun other member => Pattern.fits_eq_none rest (disjoint other member c begins)
  simp [next, List.findSome?_append, nothing, fitting]

end Insertion

/-- A pass over the lexemes of a scan is another scan, if the rule of the pass and the scan
agree at the front of each text. -/
theorem replace_scan {rule : Rule} {old new : List Pattern}
    (agree : ∀ c rest,
      (rule (scan old (c :: rest)) = none ∧ next new c rest = next old c rest) ∨
      ∃ lexeme extra behind, rule (scan old (c :: rest)) = some (lexeme, extra) ∧
        next new c rest = (lexeme, behind) ∧
        (scan old (c :: rest)).drop (extra + 1) = scan old behind)
    (text : List Char) : replace rule (scan old text) = scan new text := by
  induction size : text.length using Nat.strongRecOn generalizing text with
  | ind size ih =>
      subst size
      cases text with
      | nil => simp [replace, replaceFrom]
      | cons c rest =>
          rcases agree c rest with ⟨misses, same⟩ | ⟨lexeme, extra, behind, fits, found, left⟩
          · have shorter := next_shrinks old c rest
            rw [scan_cons] at misses
            rw [scan_cons, replace_cons_none misses, scan_cons, same,
              ih _ (Nat.lt_succ_of_le shorter) _ rfl]
          · have shorter := next_shrinks new c rest
            rw [found] at shorter
            rw [scan_cons] at fits left
            rw [List.drop_succ_cons] at left
            rw [scan_cons, replace_cons_some fits, left, scan_cons_of_next found,
              ih _ (Nat.lt_succ_of_le shorter) _ rfl]

/-- A pass that finds what one more pattern would find. -/
theorem replace_insert {rule : Rule} (before after : List Pattern) {pattern : Pattern}
    (disjoint : ∀ other ∈ before, ∀ c, pattern.begins c = true → other.begins c = false)
    (fits : ∀ c rest lexeme behind, pattern.fits c rest = some (lexeme, behind) →
      (rule (scan (before ++ after) (c :: rest)) = none ∧
        next (before ++ after) c rest = (lexeme, behind)) ∨
      ∃ extra, rule (scan (before ++ after) (c :: rest)) = some (lexeme, extra) ∧
        (scan (before ++ after) (c :: rest)).drop (extra + 1) = scan (before ++ after) behind)
    (misses : ∀ c rest, (∀ lexeme behind, pattern.fits c rest ≠ some (lexeme, behind)) →
      rule (scan (before ++ after) (c :: rest)) = none) (text : List Char) :
    replace rule (scan (before ++ after) text) = scan (before ++ pattern :: after) text := by
  refine replace_scan (fun c rest => ?_) text
  cases fitting : pattern.fits c rest with
  | none => exact .inl ⟨misses c rest (by simp [fitting]), next_insert_none after fitting⟩
  | some result =>
      obtain ⟨lexeme, behind⟩ := result
      have found := next_insert_some after disjoint fitting
      rcases fits c rest lexeme behind fitting with ⟨nothing, same⟩ | ⟨extra, fits, left⟩
      · exact .inl ⟨nothing, found.trans same.symm⟩
      · exact .inr ⟨lexeme, extra, behind, fits, found, left⟩

/-- Characters whose lexemes are the members of a joining, and the lexeme of a run of them. -/
structure Run (joining : Joining) where
  inside : Char → Bool
  value : List Char → Lexeme
  value_single : ∀ {c}, inside c = true → value [c] = [c]
  member_single : ∀ c, joining.member [c] = inside c
  value_cons : ∀ {c d run}, inside c = true → (∀ e ∈ d :: run, inside e = true) →
    joining.member (value (d :: run)) = true ∧
      joining.combine [c] (value (d :: run)) = value (c :: d :: run)

theorem length_dropWhile_le (inside : Char → Bool) (text : List Char) :
    (text.dropWhile inside).length ≤ text.length :=
  (List.dropWhile_suffix inside).length_le

def Run.pattern {joining : Joining} (run : Run joining) : Pattern where
  begins := run.inside
  take c rest := some (run.value (c :: rest.takeWhile run.inside), rest.dropWhile run.inside)
  shrinks := by
    intro c rest lexeme behind found
    cases found
    exact length_dropWhile_le run.inside rest

section Runs

variable {joining : Joining} {run : Run joining}

def Run.Foreign (run : Run joining) (pattern : Pattern) : Prop :=
  (∀ c, run.inside c = true → pattern.begins c = false) ∧
    ∀ {c rest lexeme behind}, pattern.fits c rest = some (lexeme, behind) →
      joining.member lexeme = false

theorem next_inside (foreign : ∀ pattern ∈ patterns, run.Foreign pattern)
    (inside : run.inside c = true) : next patterns c rest = ([c], rest) :=
  next_of_no_fit fun pattern member =>
    Pattern.fits_eq_none rest ((foreign pattern member).1 c inside)

theorem member_next (rest : List Char) (foreign : ∀ pattern ∈ patterns, run.Foreign pattern)
    (outside : run.inside c = false) : joining.member (next patterns c rest).1 = false := by
  rcases next_cases patterns c rest with ⟨pattern, member, fitting⟩ | alone
  · exact (foreign pattern member).2 fitting
  · rw [alone]
    exact (run.member_single c).trans outside

theorem merge_scan_run (foreign : ∀ pattern ∈ patterns, run.Foreign pattern)
    (inside : run.inside c = true) :
    joining.merge (scan patterns (c :: rest)) =
      run.value (c :: rest.takeWhile run.inside) ::
        joining.merge (scan patterns (rest.dropWhile run.inside)) := by
  induction rest generalizing c with
  | nil =>
      rw [scan_cons_of_next (next_inside foreign inside)]
      simp [Joining.merge, Joining.push, run.value_single inside]
  | cons d rest ih =>
      rw [scan_cons_of_next (next_inside foreign inside), Joining.merge_cons]
      cases more : run.inside d with
      | true =>
          rw [ih more]
          have all : ∀ e ∈ d :: rest.takeWhile run.inside, run.inside e = true := by
            intro e found
            rcases List.mem_cons.mp found with rfl | found
            · exact more
            · exact List.all_eq_true.mp List.all_takeWhile e found
          obtain ⟨member, joined⟩ := run.value_cons inside all
          have single := (run.member_single c).trans inside
          simp [Joining.push, more, single, member, joined]
      | false =>
          have outside := member_next rest foreign more
          have apart : joining.merge (scan patterns (d :: rest)) =
              (next patterns d rest).1 :: joining.merge (scan patterns (next patterns d rest).2) := by
            rw [scan_cons, Joining.merge_cons, Joining.push_of_not_member outside]
          rw [List.takeWhile_cons_of_neg (by simp [more]),
            List.dropWhile_cons_of_neg (by simp [more]), run.value_single inside, apart]
          simp [Joining.push, outside]

/-- Joining all neighbours among the lexemes of a scan is one more pattern. -/
theorem merge_scan (run : Run joining) (before after : List Pattern)
    (disjoint : ∀ other ∈ before, ∀ c, run.pattern.begins c = true → other.begins c = false)
    (foreign : ∀ pattern ∈ before ++ after, run.Foreign pattern) (text : List Char) :
    joining.merge (scan (before ++ after) text) = scan (before ++ run.pattern :: after) text := by
  induction size : text.length using Nat.strongRecOn generalizing text with
  | ind size ih =>
      subst size
      cases text with
      | nil => simp [Joining.merge]
      | cons c rest =>
          cases inside : run.inside c with
          | true =>
              have fitting : run.pattern.fits c rest =
                  some (run.value (c :: rest.takeWhile run.inside),
                    rest.dropWhile run.inside) := by
                simp [Pattern.fits, Run.pattern, inside]
              have shorter := length_dropWhile_le run.inside rest
              rw [merge_scan_run foreign inside,
                scan_cons_of_next (next_insert_some after disjoint fitting),
                ih _ (Nat.lt_succ_of_le shorter) _ rfl]
          | false =>
              have shorter := next_shrinks (before ++ after) c rest
              have misses : run.pattern.fits c rest = none :=
                Pattern.fits_eq_none rest inside
              rw [scan_cons, Joining.merge_cons,
                Joining.push_of_not_member (member_next rest foreign inside),
                ih _ (Nat.lt_succ_of_le shorter) _ rfl, scan_cons, next_insert_none after misses]

end Runs

end ComplexCalculator.Lexeme
