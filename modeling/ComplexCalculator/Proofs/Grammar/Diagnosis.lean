import ComplexCalculator.Message
import ComplexCalculator.Proofs.Grammar.Acceptance

namespace ComplexCalculator.Grammar

variable {V ε : Type}

/-- Nothing but plus signs stands since the last opening parenthesis, or since the beginning. -/
def OnlySigns (before : List Token) : Prop :=
  ∃ outside signs, (outside = [] ∨ outside.getLast? = some .opening) ∧
    visible before = outside ++ List.replicate signs .plus

/-- The token cannot stand behind the tokens before it. -/
def Misplaced (before : List Token) : Token → Prop
  | .unknown _ => True
  | .star | .slash | .caret => ¬ ∃ last, previous before = some last ∧ EndsOperand last
  | .plus => ∃ last, previous before = some last ∧ AwaitsOperand last
  | .closing =>
      (∃ last, previous before = some last ∧ (last = .plus ∨ AwaitsOperand last)) ∧
        ¬ OnlySigns before
  | _ => False

def depthBehind (depth : Nat) : Token → Nat
  | .opening => depth + 1
  | .closing => depth - 1
  | _ => depth

/-- How many groups are open behind these tokens. A parenthesis that closes nothing counts for
nothing. -/
def openGroups (before : List Token) : Nat := before.foldl depthBehind 0

/-- The token is misplaced, or it is a parenthesis that closes nothing. -/
def AtFault (before : List Token) (token : Token) : Prop :=
  Misplaced before token ∨ token = .closing ∧ openGroups before = 0

def Faultless (tokens : List Token) : Prop :=
  ∀ before token after, tokens = before ++ token :: after → ¬ AtFault before token

/-- The fault of tokens that are closed by one more parenthesis, as an error and its message. -/
inductive Diagnosis (tokens : List Token) : SyntaxError → String → Prop where
  | misplaced {front rest : List Token} {token : Token}
      (split : tokens ++ [Token.closing] = front ++ token :: rest) (faultless : Faultless front)
      (misplaced : Misplaced front token) :
      Diagnosis tokens (.unexpected token.text rest)
        ("expression invalide : jeton " ++ Text.quoted token.text ++ " inattendu (reste : " ++
          Text.quoted (Token.listing rest) ++ ")")
  | stray {front rest : List Token} (split : tokens = front ++ .closing :: rest)
      (faultless : Faultless front) (placed : ¬ Misplaced front .closing)
      (closesNothing : openGroups front = 0) :
      Diagnosis tokens (.strayClosing (rest ++ [Token.closing]))
        ("analyse impossible : parenthèse fermante en trop (reste : " ++
          Token.listing (rest ++ [Token.closing]) ++ ")")
  | unclosed (faultless : Faultless (tokens ++ [Token.closing]))
      (outnumbered : tokens.count .closing < tokens.count .opening) :
      Diagnosis tokens .unclosed "analyse impossible : parenthèse fermante manquante"

section Contexts

variable {before : List Token} {token : Token}

theorem visible_cons_opening (before : List Token) :
    visible (.opening :: before) = .opening :: visible before := rfl

/-- What stands before a token does not change when the text is taken for a group, unless nothing
stands there. -/
theorem exists_previous_iff {P : Token → Prop} (other : ¬ P .opening) :
    (∃ last, previous (.opening :: before) = some last ∧ P last) ↔
      ∃ last, previous before = some last ∧ P last := by
  unfold previous
  rw [visible_cons_opening, List.getLast?_cons]
  cases (visible before).getLast? with
  | none => simp [other]
  | some last => simp

theorem opensGroup_iff : OpensGroup (.opening :: before) ↔ OnlySigns before := by
  unfold OpensGroup OnlySigns
  rw [visible_cons_opening]
  constructor
  · intro holds
    obtain ⟨outside, signs, split⟩ := holds
    cases outside with
    | nil => exact ⟨[], signs, .inl rfl, (List.cons.inj split).2⟩
    | cons first outside =>
        have shown := (List.cons.inj split).2
        exact ⟨outside ++ [.opening], signs, .inr (by simp), by simpa using shown⟩
  · intro holds
    obtain ⟨outside, signs, rfl | opens, split⟩ := holds
    · exact ⟨[], signs, by simp [split]⟩
    · obtain ⟨front, rfl⟩ := List.getLast?_eq_some_iff.mp opens
      exact ⟨.opening :: front, signs, by simp [split]⟩

theorem within_value_iff :
    Context.within before = .value ↔ ∃ last, previous before = some last ∧ EndsOperand last := by
  rw [within_eq_value_iff]
  exact exists_previous_iff (by simp [EndsOperand])

theorem within_operand_iff (known : ∀ text, .unknown text ∉ before) :
    Context.within before = .operand ↔
      ∃ last, previous before = some last ∧ AwaitsOperand last := by
  rw [within_eq_operand_iff, exists_previous_iff (by simp [AwaitsOperand])]
  constructor
  · intro holds
    obtain ⟨last, found, waits | ⟨text, rfl⟩⟩ := holds
    · exact ⟨last, found, waits⟩
    · exact absurd (mem_of_previous found) (known text)
  · intro holds
    obtain ⟨last, found, waits⟩ := holds
    exact ⟨last, found, .inl waits⟩

theorem within_opened_iff : Context.within before = .opened ↔ OnlySigns before :=
  (within_eq_opened_iff before).trans opensGroup_iff

theorem previous_of_within_term (term : Context.within before = .term) :
    previous before = some .plus := by
  induction before using List.reverseRecOn with
  | nil => contradiction
  | append_singleton before token ih =>
      rw [Context.within_snoc] at term
      cases token with
      | space => rw [previous_snoc_space]; exact ih term
      | plus => exact previous_snoc before (by simp)
      | _ => contradiction

theorem not_endsOperand {last : Token} (kind : last = .plus ∨ AwaitsOperand last) :
    ¬ EndsOperand last := by
  rcases kind with rfl | rfl | rfl | rfl | rfl | rfl | rfl <;> simp [EndsOperand]

theorem misplaced_closing_iff (known : ∀ text, .unknown text ∉ before) :
    Misplaced before .closing ↔ (Context.within before).admits .closing = false := by
  rw [Misplaced, ← within_opened_iff]
  constructor
  · intro misplaced
    obtain ⟨⟨last, found, kind⟩, notOpened⟩ := misplaced
    have noValue : Context.within before ≠ .value := by
      intro value
      obtain ⟨other, found', ends⟩ := within_value_iff.mp value
      obtain rfl : last = other := Option.some.inj (found.symm.trans found')
      exact not_endsOperand kind ends
    cases context : Context.within before with
    | opened => exact absurd context notOpened
    | value => exact absurd context noValue
    | term | operand => rfl
  · intro refused
    cases context : Context.within before with
    | opened | value => simp [context, Context.admits] at refused
    | term => exact ⟨⟨.plus, previous_of_within_term context, .inl rfl⟩, by simp⟩
    | operand =>
        obtain ⟨last, found, waits⟩ := (within_operand_iff known).mp context
        exact ⟨⟨last, found, .inr waits⟩, by simp⟩

/-- The token before says what the context admits. -/
theorem misplaced_iff (known : ∀ text, .unknown text ∉ before) (token : Token) :
    Misplaced before token ↔ (Context.within before).admits token = false := by
  cases token with
  | unknown text => simp [Misplaced, Context.admits]
  | plus =>
      rw [Misplaced, ← within_operand_iff known]
      cases Context.within before <;> simp [Context.admits]
  | star | slash | caret =>
      rw [Misplaced, ← within_value_iff]
      cases Context.within before <;> simp [Context.admits]
  | closing => exact misplaced_closing_iff known
  | _ => simp [Misplaced, Context.admits]

end Contexts

section Paths

variable {front rest tokens : List Token} {token : Token} {target : Place}

theorem Path.depth_foldl {place : Place} (path : Path place front target []) :
    front.foldl depthBehind place.depth = target.depth := by
  generalize stop : [] = rest at path
  induction path with
  | here => subst stop; rfl
  | @step place _ token _ _ _ _ _ ih =>
      have behind : (place.behind token).depth = depthBehind place.depth token := by
        cases token <;> rfl
      rw [List.foldl_cons, ← behind]
      exact ih stop

theorem Path.openGroups_eq (path : Path ⟨.opened, 0⟩ front target []) :
    openGroups front = target.depth :=
  path.depth_foldl

theorem Path.known (path : Path ⟨.opened, 0⟩ front target []) (text : String) :
    .unknown text ∉ front := by
  intro member
  obtain ⟨before, after, rfl⟩ := List.append_of_mem member
  exact absurd path.admits_within (by simp [Context.admits])

theorem Path.misplaced_iff (path : Path ⟨.opened, 0⟩ front target []) (token : Token) :
    Misplaced front token ↔ target.context.admits token = false := by
  rw [path.context_eq]
  exact Grammar.misplaced_iff path.known token

theorem Path.faultless (path : Path ⟨.opened, 0⟩ front target []) : Faultless front := by
  intro before token after split
  subst split
  obtain ⟨next, first, second⟩ := path.split
  cases second with
  | step admitted closes _ =>
      intro fault
      rw [AtFault, first.misplaced_iff, first.openGroups_eq, admitted] at fault
      obtain ⟨closing, nothing⟩ := fault.resolve_left nofun
      exact absurd nothing (Nat.ne_of_gt (closes closing))

theorem Misstep.diagnosis {error : SyntaxError}
    (misstep : Misstep 0 ⟨.opened, 0⟩ (tokens ++ [Token.closing]) error) :
    Diagnosis tokens error error.message := by
  cases misstep with
  | @unexpected target token rest path refused =>
      obtain ⟨front, split⟩ := path.exists_front
      rw [split] at path
      have reached := path.of_append
      exact .misplaced split reached.faultless ((reached.misplaced_iff token).mpr refused)
  | @unclosed target path _ =>
      have counts := path.depth_eq
      simp at counts
      exact .unclosed path.faultless (by omega)

/-- The group ends at a parenthesis that closes nothing, before the end of the tokens. -/
theorem Path.diagnosis {context : Context} (admitted : context.admits .closing = true)
    (path : Path ⟨.opened, 0⟩ (tokens ++ [Token.closing]) ⟨context, 0⟩ (.closing :: rest))
    (left : rest ≠ []) :
    Diagnosis tokens (.strayClosing rest) (SyntaxError.strayClosing rest).message := by
  obtain ⟨front, split⟩ := path.exists_front
  rw [split] at path
  have reached := path.of_append
  obtain ⟨behind, last, rfl⟩ := (List.eq_nil_or_concat rest).resolve_left left
  rw [List.concat_eq_append] at split ⊢
  rw [← List.cons_append, ← List.append_assoc] at split
  obtain ⟨same, closing⟩ := List.append_inj' split rfl
  obtain rfl : Token.closing = last := (List.cons.inj closing).1
  have placed : ¬ Misplaced front .closing := by
    rw [reached.misplaced_iff]
    simp [admitted]
  exact .stray same reached.faultless placed reached.openGroups_eq

end Paths

section Functional

variable {tokens front front' rest rest' : List Token} {token token' : Token}

theorem Faultless.between_eq_nil {between : List Token} (faultless : Faultless (front ++ between))
    (fault : AtFault front token) (onward : token :: rest = between ++ token' :: rest') :
    between = [] := by
  cases between with
  | nil => rfl
  | cons first between =>
      obtain ⟨rfl, _⟩ := List.cons.inj onward
      exact absurd fault (faultless front token between rfl)

/-- Only one token is the first at fault. -/
theorem Faultless.split_unique (same : front ++ token :: rest = front' ++ token' :: rest')
    (faultless : Faultless front) (fault : AtFault front token)
    (faultless' : Faultless front') (fault' : AtFault front' token') :
    front = front' ∧ token = token' ∧ rest = rest' := by
  have aligned : front = front' := by
    rcases List.append_eq_append_iff.mp same with ⟨between, rfl, onward⟩ | ⟨between, rfl, onward⟩
    · rw [faultless'.between_eq_nil fault onward, List.append_nil]
    · rw [faultless.between_eq_nil fault' onward, List.append_nil]
  subst aligned
  obtain ⟨rfl, rfl⟩ := List.cons.inj (List.append_cancel_left same)
  exact ⟨rfl, rfl, rfl⟩

theorem stray_split (split : tokens = front ++ .closing :: rest) :
    tokens ++ [Token.closing] = front ++ .closing :: (rest ++ [Token.closing]) := by
  simp [split]

/-- Tokens have at most one diagnosis. -/
theorem Diagnosis.unique {error other : SyntaxError} {message text : String}
    (diagnosis : Diagnosis tokens error message) (diagnosis' : Diagnosis tokens other text) :
    other = error ∧ text = message := by
  cases diagnosis with
  | misplaced split faultless misplaced =>
      cases diagnosis' with
      | misplaced split' faultless' misplaced' =>
          obtain ⟨rfl, rfl, rfl⟩ := faultless.split_unique (split.symm.trans split')
            (.inl misplaced) faultless' (.inl misplaced')
          exact ⟨rfl, rfl⟩
      | stray split' faultless' placed nothing =>
          obtain ⟨rfl, rfl, rfl⟩ := faultless.split_unique
            (split.symm.trans (stray_split split')) (.inl misplaced) faultless' (.inr ⟨rfl, nothing⟩)
          exact absurd misplaced placed
      | unclosed faultless' _ => exact absurd (.inl misplaced) (faultless' _ _ _ split)
  | stray split faultless placed nothing =>
      cases diagnosis' with
      | misplaced split' faultless' misplaced' =>
          obtain ⟨rfl, rfl, rfl⟩ := faultless.split_unique
            ((stray_split split).symm.trans split') (.inr ⟨rfl, nothing⟩) faultless' (.inl misplaced')
          exact absurd misplaced' placed
      | stray split' faultless' placed' nothing' =>
          obtain ⟨rfl, _, rfl⟩ := faultless.split_unique (split.symm.trans split')
            (.inr ⟨rfl, nothing⟩) faultless' (.inr ⟨rfl, nothing'⟩)
          exact ⟨rfl, rfl⟩
      | unclosed faultless' _ =>
          exact absurd (.inr ⟨rfl, nothing⟩) (faultless' _ _ _ (stray_split split))
  | unclosed faultless _ =>
      cases diagnosis' with
      | misplaced split' _ misplaced' =>
          exact absurd (.inl misplaced') (faultless _ _ _ split')
      | stray split' _ _ nothing' =>
          exact absurd (.inr ⟨rfl, nothing'⟩) (faultless _ _ _ (stray_split split'))
      | unclosed _ _ => exact ⟨rfl, rfl⟩

end Functional

theorem parse_diagnosis [Nonempty ε] {semantics : Semantics V ε} {tokens : List Token}
    (spelled : WellSpelled tokens) {error : SyntaxError}
    (failed : parse semantics tokens = .error (.malformed error)) :
    Diagnosis tokens error error.message := by
  have groups := read_group semantics tokens
  unfold parse at failed
  split at failed
  · contradiction
  · rename_i found
    rename_i value rest unfinished
    rw [found] at groups
    obtain ⟨context, admitted, path⟩ := groups
    cases failed
    exact path.diagnosis admitted unfinished
  · rename_i failure found
    rw [found] at groups
    cases failed
    exact (groups (wellSpelled_snoc spelled)).diagnosis

/-- A syntax error of the tokens is the diagnosis of a scan from the left, which is the only
one. -/
theorem ofTokens_diagnosis (tokens : List Token) (spelled : WellSpelled tokens)
    (error : SyntaxError) (failed : Complex.ofTokens tokens = .error (.malformed error)) :
    Diagnosis tokens error error.message ∧
      ∀ other text, Diagnosis tokens other text → other = error ∧ text = error.message := by
  have diagnosis := parse_diagnosis spelled failed
  exact ⟨diagnosis, fun _ _ => diagnosis.unique⟩

/-- In `(+) ^+2.5)?` the first plus sign opens a group, and the exponent cannot start with the
second one; a parenthesis that closes nothing and an unknown token come later. -/
theorem ofTokens_diagnosis_sign :
    let tokens := [.opening, .plus, .closing, .space, .caret, .plus, .number "2.5", .closing,
      .unknown "?"]
    let error := SyntaxError.unexpected "+" [.number "2.5", .closing, .unknown "?", .closing]
    WellSpelled tokens ∧ Complex.ofTokens tokens = .error (.malformed error) ∧
      Diagnosis tokens error error.message := by
  intro tokens error
  have spelled : WellSpelled tokens := by
    intro text member
    obtain rfl : text = "2.5" := by simpa [tokens] using member
    exact ⟨['2'], ['5'], by decide, by simp [Decimal.AllDigits], by simp [Decimal.AllDigits],
      by decide⟩
  have failed : Complex.ofTokens tokens = .error (.malformed error) := rfl
  exact ⟨spelled, failed, (ofTokens_diagnosis tokens spelled error failed).1⟩

end ComplexCalculator.Grammar
