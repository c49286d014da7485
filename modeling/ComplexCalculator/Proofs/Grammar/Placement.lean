import ComplexCalculator.Proofs.Grammar.Context

namespace ComplexCalculator.Grammar

def visible (tokens : List Token) : List Token := tokens.filter (· != .space)

def previous (before : List Token) : Option Token := (visible before).getLast?

/-- Only plus signs stand behind an opening parenthesis, if anything does. -/
def OpensGroup (before : List Token) : Prop :=
  ∃ outside signs, visible before = outside ++ .opening :: List.replicate signs .plus

def EndsOperand (token : Token) : Prop :=
  (∃ text, token = .number text) ∨ token = .imaginaryUnit ∨ token = .euler ∨ token = .closing

def AwaitsOperand (token : Token) : Prop :=
  token = .minus ∨ token = .star ∨ token = .slash ∨ token = .caret ∨ token = .exp ∨ token = .ln

def enclosed (tokens : List Token) : List Token := .opening :: (tokens ++ [.closing])

/-- The tokens can be read from left to right: all of them are known, the parentheses match,
and each operator and each closing parenthesis stands behind a token that allows it. -/
structure WellPlaced (tokens : List Token) : Prop where
  known : ∀ text, .unknown text ∉ tokens
  covered : ∀ front, front <+: tokens → front.count .closing ≤ front.count .opening
  balanced : tokens.count .closing = tokens.count .opening
  factor : ∀ before token after, enclosed tokens = before ++ token :: after →
    token = .star ∨ token = .slash ∨ token = .caret →
    ∃ last, previous before = some last ∧ EndsOperand last
  sign : ∀ before after, enclosed tokens = before ++ .plus :: after →
    ∀ last, previous before = some last → ¬ AwaitsOperand last
  closing : ∀ before after, enclosed tokens = before ++ .closing :: after →
    (∃ last, previous before = some last ∧ EndsOperand last) ∨ OpensGroup before

section Contexts

theorem visible_snoc_space (before : List Token) :
    visible (before ++ [.space]) = visible before := by
  simp [visible]

theorem visible_snoc (before : List Token) {token : Token} (shown : token ≠ .space) :
    visible (before ++ [token]) = visible before ++ [token] := by
  simp [visible, shown]

theorem previous_snoc (before : List Token) {token : Token} (shown : token ≠ .space) :
    previous (before ++ [token]) = some token := by
  simp [previous, visible_snoc before shown]

theorem previous_snoc_space (before : List Token) :
    previous (before ++ [.space]) = previous before := by
  simp [previous, visible_snoc_space]

/-- The context behind all the tokens of an unfinished group. -/
def Context.within (before : List Token) : Context := before.foldl Context.behind .opened

theorem Context.within_snoc (before : List Token) (token : Token) :
    Context.within (before ++ [token]) = (Context.within before).behind token := by
  simp [Context.within]

theorem within_eq_value_iff (before : List Token) :
    Context.within before = .value ↔
      ∃ last, previous (.opening :: before) = some last ∧ EndsOperand last := by
  induction before using List.reverseRecOn with
  | nil => simp [Context.within, previous, visible, EndsOperand]
  | append_singleton before token ih =>
      rw [Context.within_snoc, ← List.cons_append]
      by_cases space : token = .space
      · subst space
        rw [previous_snoc_space]
        exact ih
      · rw [previous_snoc _ space]
        cases token with
        | plus => cases Context.within before <;> simp [Context.behind, EndsOperand]
        | _ => simp_all [Context.behind, EndsOperand]

theorem within_eq_operand_iff (before : List Token) :
    Context.within before = .operand ↔
      ∃ last, previous (.opening :: before) = some last ∧
        (AwaitsOperand last ∨ ∃ text, last = .unknown text) := by
  induction before using List.reverseRecOn with
  | nil => simp [Context.within, previous, visible, AwaitsOperand]
  | append_singleton before token ih =>
      rw [Context.within_snoc, ← List.cons_append]
      by_cases space : token = .space
      · subst space
        rw [previous_snoc_space]
        exact ih
      · rw [previous_snoc _ space]
        cases token with
        | plus => cases Context.within before <;> simp [Context.behind, AwaitsOperand]
        | _ => simp_all [Context.behind, AwaitsOperand]

theorem opensGroup_snoc_plus (before : List Token) :
    OpensGroup (before ++ [.plus]) ↔ OpensGroup before := by
  have shown : visible (before ++ [.plus]) = visible before ++ [.plus] :=
    visible_snoc before (by simp)
  constructor
  · intro holds
    obtain ⟨outside, signs, split⟩ := holds
    rw [shown] at split
    cases signs with
    | zero =>
        have last := congrArg List.getLast? split
        simp at last
    | succ signs =>
        rw [List.replicate_succ', ← List.cons_append, ← List.append_assoc] at split
        exact ⟨outside, signs, (List.append_inj' split rfl).1⟩
  · intro holds
    obtain ⟨outside, signs, split⟩ := holds
    refine ⟨outside, signs + 1, ?_⟩
    rw [shown, split, List.replicate_succ']
    simp

theorem not_opensGroup_snoc (before : List Token) {token : Token} (shown : token ≠ .space)
    (sign : token ≠ .plus) (opening : token ≠ .opening) : ¬ OpensGroup (before ++ [token]) := by
  intro holds
  obtain ⟨outside, signs, split⟩ := holds
  rw [visible_snoc before shown] at split
  have last := congrArg List.getLast? split
  cases signs with
  | zero =>
      simp only [List.getLast?_append, List.getLast?_singleton, List.replicate_zero] at last
      exact opening (Option.some.inj last)
  | succ signs =>
      rw [List.replicate_succ', ← List.cons_append, ← List.append_assoc] at last
      simp only [List.getLast?_append, List.getLast?_singleton] at last
      exact sign (Option.some.inj last)

theorem within_eq_opened_iff (before : List Token) :
    Context.within before = .opened ↔ OpensGroup (.opening :: before) := by
  induction before using List.reverseRecOn with
  | nil => exact ⟨fun _ => ⟨[], 0, rfl⟩, fun _ => rfl⟩
  | append_singleton before token ih =>
      rw [Context.within_snoc, ← List.cons_append]
      cases token with
      | space =>
          unfold OpensGroup
          rw [visible_snoc_space]
          exact ih
      | plus =>
          rw [opensGroup_snoc_plus, ← ih]
          cases Context.within before <;> simp [Context.behind]
      | opening =>
          refine ⟨fun _ => ⟨visible (.opening :: before), 0, ?_⟩, fun _ => rfl⟩
          exact visible_snoc _ (by simp)
      | _ =>
          constructor
          · simp [Context.behind]
          · intro opens
            exact absurd opens (not_opensGroup_snoc _ (by simp) (by simp) (by simp))

theorem mem_of_previous {before : List Token} {last : Token}
    (found : previous before = some last) : last ∈ before :=
  (List.mem_filter.mp (List.mem_of_getLast? found)).1

end Contexts

section Paths

variable {place target : Place} {tokens : List Token}

theorem Path.split {front rest : List Token} (path : Path place (front ++ rest) target []) :
    ∃ next, Path place front next [] ∧ Path next rest target [] := by
  induction front generalizing place with
  | nil => exact ⟨place, .here, path⟩
  | cons token front ih =>
      cases path with
      | step admitted closes onward =>
          obtain ⟨next, first, second⟩ := ih onward
          exact ⟨next, .step admitted closes first, second⟩

theorem Path.context_eq (path : Path place tokens target []) :
    target.context = tokens.foldl Context.behind place.context := by
  generalize stop : [] = rest at path
  induction path with
  | here => subst stop; rfl
  | @step place _ token _ _ _ _ _ ih =>
      have behind : (place.behind token).context = place.context.behind token := by
        cases token <;> rfl
      rw [ih stop, behind, List.foldl_cons]

theorem Path.depth_eq (path : Path place tokens target []) :
    target.depth + tokens.count .closing = place.depth + tokens.count .opening := by
  generalize stop : [] = rest at path
  induction path with
  | here => subst stop; rfl
  | @step place _ token _ _ _ closes _ ih =>
      have onward := ih stop
      cases token with
      | opening => simp_all [Place.behind]; omega
      | closing =>
          have positive := closes rfl
          simp_all [Place.behind]
          omega
      | _ => simpa [Place.behind] using onward

theorem enclosed_split {tokens before after : List Token} {token : Token}
    (split : enclosed tokens = before ++ token :: after) (inside : token ≠ .opening) :
    ∃ front, before = .opening :: front ∧
      ((∃ rest, tokens = front ++ token :: rest) ∨ token = .closing ∧ front = tokens) := by
  cases before with
  | nil => exact absurd (List.cons.inj split).1.symm inside
  | cons first front =>
      obtain ⟨rfl, same⟩ := List.cons.inj split
      refine ⟨front, rfl, ?_⟩
      rcases List.eq_nil_or_concat after with rfl | ⟨rest, last, rfl⟩
      · obtain ⟨rfl, closing⟩ := List.append_inj' same rfl
        exact .inr ⟨(List.cons.inj closing).1.symm, rfl⟩
      · change tokens ++ [.closing] = front ++ (token :: rest.concat last) at same
        rw [List.concat_eq_append, ← List.cons_append, ← List.append_assoc] at same
        exact .inl ⟨rest, (List.append_inj' same rfl).1⟩

theorem enclosed_append (front rest : List Token) (token : Token) :
    enclosed (front ++ token :: rest) = (.opening :: front) ++ token :: (rest ++ [.closing]) := by
  simp [enclosed]

theorem WellPlaced.admits {tokens front rest : List Token} {token : Token}
    (placed : WellPlaced tokens) (split : tokens = front ++ token :: rest) :
    (Context.within front).admits token = true := by
  have whole := enclosed_append front rest token
  rw [← split] at whole
  cases token with
  | unknown text => exact absurd (by simp [split]) (placed.known text)
  | plus =>
      have free : Context.within front ≠ .operand := by
        intro waits
        obtain ⟨last, found, waiting⟩ := (within_eq_operand_iff front).mp waits
        rcases waiting with waiting | ⟨text, rfl⟩
        · exact placed.sign _ _ whole last found waiting
        · have member := mem_of_previous found
          exact placed.known text (by simp_all)
      simp [Context.admits, free]
  | star =>
      have value := (within_eq_value_iff front).mpr (placed.factor _ _ _ whole (by simp))
      simp [Context.admits, value]
  | slash =>
      have value := (within_eq_value_iff front).mpr (placed.factor _ _ _ whole (by simp))
      simp [Context.admits, value]
  | caret =>
      have value := (within_eq_value_iff front).mpr (placed.factor _ _ _ whole (by simp))
      simp [Context.admits, value]
  | closing =>
      rcases placed.closing _ _ whole with ends | opens
      · have value := (within_eq_value_iff front).mpr ends
        simp [Context.admits, value]
      · have opened := (within_eq_opened_iff front).mpr opens
        simp [Context.admits, opened]
  | _ => rfl

theorem WellPlaced.exists_path {tokens front rest : List Token} (placed : WellPlaced tokens)
    (split : tokens = front ++ rest) : ∃ target, Path ⟨.opened, 0⟩ front target [] := by
  induction front using List.reverseRecOn generalizing rest with
  | nil => exact ⟨⟨.opened, 0⟩, .here⟩
  | append_singleton front token ih =>
      have behind : tokens = front ++ token :: rest := by simp [split]
      obtain ⟨target, path⟩ := ih behind
      have admitted : target.context.admits token = true := by
        rw [path.context_eq]
        exact placed.admits behind
      have closes : token = .closing → 0 < target.depth := by
        intro equal
        subst equal
        have covered := placed.covered (front ++ [.closing]) ⟨rest, split.symm⟩
        have depth := path.depth_eq
        simp only [List.count_append, List.count_singleton] at covered
        simp at covered depth
        omega
      exact ⟨target.behind token, (path.append [token]).trans (.one admitted closes)⟩

theorem WellPlaced.path {tokens : List Token} (placed : WellPlaced tokens) :
    ∃ context : Context, context.admits .closing = true ∧
      Path ⟨.opened, 0⟩ tokens ⟨context, 0⟩ [] := by
  obtain ⟨⟨context, depth⟩, path⟩ := placed.exists_path (List.append_nil tokens).symm
  have depthEq := path.depth_eq
  have balanced := placed.balanced
  obtain rfl : depth = 0 := by simp only [balanced] at depthEq; omega
  have contextEq : context = Context.within tokens := path.context_eq
  refine ⟨context, ?_, path⟩
  rcases placed.closing (.opening :: tokens) [] rfl with ends | opens
  · rw [contextEq, (within_eq_value_iff tokens).mpr ends]
    rfl
  · rw [contextEq, (within_eq_opened_iff tokens).mpr opens]
    rfl

theorem Path.admits_within {front rest : List Token} {token : Token}
    (path : Path ⟨.opened, 0⟩ (front ++ token :: rest) target []) :
    (Context.within front).admits token = true := by
  obtain ⟨next, first, second⟩ := path.split
  cases second with
  | step admitted _ _ => rwa [first.context_eq] at admitted

theorem within_admits_closing {front : List Token}
    (admitted : (Context.within front).admits .closing = true) :
    (∃ last, previous (.opening :: front) = some last ∧ EndsOperand last) ∨
      OpensGroup (.opening :: front) := by
  rw [← within_eq_value_iff, ← within_eq_opened_iff]
  cases behind : Context.within front <;> simp_all [Context.admits]

theorem WellPlaced.of_path {tokens : List Token} {context : Context}
    (admitted : context.admits .closing = true)
    (path : Path ⟨.opened, 0⟩ tokens ⟨context, 0⟩ []) : WellPlaced tokens where
  known := by
    intro text member
    obtain ⟨front, rest, rfl⟩ := List.append_of_mem member
    exact absurd path.admits_within (by simp [Context.admits])
  covered := by
    intro front holds
    obtain ⟨rest, rfl⟩ := holds
    obtain ⟨next, first, _⟩ := path.split
    have depth := first.depth_eq
    simp only [Nat.zero_add] at depth
    omega
  balanced := by simpa using path.depth_eq
  factor := by
    intro before token after split kind
    obtain ⟨front, rfl, ⟨rest, rfl⟩ | ⟨closing, _⟩⟩ := enclosed_split split (by grind)
    · have admits := path.admits_within
      rw [← within_eq_value_iff]
      rcases kind with rfl | rfl | rfl <;> simpa [Context.admits] using admits
    · grind
  sign := by
    intro before after split last found waits
    obtain ⟨front, rfl, ⟨rest, rfl⟩ | ⟨closing, _⟩⟩ := enclosed_split split (by simp)
    · have operand := (within_eq_operand_iff front).mpr ⟨last, found, .inl waits⟩
      have admits := path.admits_within
      rw [operand] at admits
      contradiction
    · contradiction
  closing := by
    intro before after split
    obtain ⟨front, rfl, ⟨rest, rfl⟩ | ⟨_, rfl⟩⟩ := enclosed_split split (by simp)
    · exact within_admits_closing path.admits_within
    · have contextEq : context = Context.within front := path.context_eq
      exact within_admits_closing (contextEq ▸ admitted)

/-- Tokens are well placed when a path leads over all of them to where the group may end. -/
theorem wellPlaced_iff_path (tokens : List Token) :
    WellPlaced tokens ↔ ∃ context : Context, context.admits .closing = true ∧
      Path ⟨.opened, 0⟩ tokens ⟨context, 0⟩ [] :=
  ⟨WellPlaced.path, fun ⟨_, admitted, path⟩ => .of_path admitted path⟩

end Paths

end ComplexCalculator.Grammar
