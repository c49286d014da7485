import ComplexCalculator.Evaluation
import ComplexCalculator.Proofs.Grammar.Levels
import ComplexCalculator.Proofs.Grammar.Placement

namespace ComplexCalculator.Grammar

variable {V ε : Type}

theorem ended_snoc (tokens : List Token) : Ended (tokens ++ [.closing]) := by
  intro token last
  simpa using last.symm

theorem wellSpelled_snoc {tokens : List Token} (spelled : WellSpelled tokens) :
    WellSpelled (tokens ++ [.closing]) := by
  intro text member
  exact spelled text (by simpa using member)

theorem read_group [Nonempty ε] (semantics : Semantics V ε) (tokens : List Token) :
    Reading.Groups (read semantics .group (tokens ++ [.closing])) (tokens ++ [.closing]) :=
  read_contract semantics .group _ (by simp) (ended_snoc tokens)

/-- No closing parenthesis follows a place in a group that is not open. -/
theorem not_path_of_closing {context : Context} {rest left : List Token} {target : Place}
    (path : Path ⟨context, 0⟩ (.closing :: rest) target left) :
    target = ⟨context, 0⟩ ∧ left = .closing :: rest := by
  cases path with
  | here => exact ⟨rfl, rfl⟩
  | step _ closes _ => exact absurd (closes rfl) (Nat.lt_irrefl 0)

theorem wellPlaced_of_parse [Nonempty ε] {semantics : Semantics V ε} {tokens : List Token}
    {value : V} (parsed : parse semantics tokens = .ok value) : WellPlaced tokens := by
  have groups := read_group semantics tokens
  unfold parse at parsed
  split at parsed
  · rename_i found
    rw [found] at groups
    obtain ⟨context, admitted, path⟩ := groups
    exact (wellPlaced_iff_path tokens).mpr ⟨context, admitted, path.of_append⟩
  · contradiction
  · contradiction

theorem Misstep.not_path {tokens : List Token} {context : Context} {error : SyntaxError}
    (misstep : Misstep 0 ⟨.opened, 0⟩ (tokens ++ [.closing]) error)
    (admitted : context.admits .closing = true) :
    ¬ Path ⟨.opened, 0⟩ (tokens ++ [.closing]) ⟨context, 0⟩ [.closing] := by
  intro whole
  cases misstep with
  | @unexpected target token rest path refused =>
      rcases whole.compare path with onward | onward
      · obtain ⟨rfl, same⟩ := not_path_of_closing onward
        obtain ⟨rfl, rfl⟩ := List.cons.inj same
        rw [admitted] at refused
        contradiction
      · cases onward with
        | here =>
            rw [admitted] at refused
            contradiction
        | step admits _ _ =>
            rw [admits] at refused
            contradiction
  | unclosed path _ =>
      rcases whole.compare path with onward | onward
      · obtain ⟨_, same⟩ := not_path_of_closing onward
        contradiction
      · cases onward

theorem parse_of_wellPlaced [Nonempty ε] (semantics : Semantics V ε) {tokens : List Token}
    (spelled : WellSpelled tokens) (placed : WellPlaced tokens) :
    (∃ value, parse semantics tokens = .ok value) ∨
      ∃ error, parse semantics tokens = .error (.arithmetic error) := by
  obtain ⟨context, admitted, path⟩ := (wellPlaced_iff_path tokens).mp placed
  have whole := path.append [.closing]
  have groups := read_group semantics tokens
  unfold parse
  cases found : read semantics .group (tokens ++ [.closing]) with
  | ok result =>
      obtain ⟨value, rest⟩ := result
      rw [found] at groups
      obtain ⟨other, _, reached⟩ := groups
      have finished : rest = [] := by
        rcases reached.compare whole with onward | onward
        · exact (List.cons.inj (not_path_of_closing onward).2).2.symm
        · exact (List.cons.inj (not_path_of_closing onward).2).2
      subst finished
      exact .inl ⟨value, rfl⟩
  | error failure =>
      rw [found] at groups
      cases failure with
      | arithmetic error => exact .inr ⟨error, rfl⟩
      | malformed error =>
          exact absurd whole ((groups (wellSpelled_snoc spelled)).not_path admitted)

instance : Nonempty ArithmeticError := ⟨.notFinite 0 0⟩

/-- Well placed tokens have a value, or an operation among them has no result; all other
tokens have no value. -/
theorem ofTokens_ok_wellPlaced (tokens : List Token) (spelled : WellSpelled tokens) :
    (WellPlaced tokens →
      (∃ value, Complex.ofTokens tokens = .ok value) ∨
        ∃ error : ArithmeticError, Complex.ofTokens tokens = .error (.arithmetic error)) ∧
    (¬ WellPlaced tokens → ∀ value, Complex.ofTokens tokens ≠ .ok value) := by
  constructor
  · intro placed
    exact parse_of_wellPlaced Complex.semantics spelled placed
  · intro misplaced value parsed
    exact misplaced (wellPlaced_of_parse parsed)

/-- The tokens of `(+2.5e-3) ^exp-j`: a plus sign that opens a group, an exponent part, and a
negated argument. -/
theorem ofTokens_ok_wellPlaced_scientific :
    let tokens := [.opening, .plus, .number "2.5", .euler, .minus, .number "3", .closing, .space,
      .caret, .exp, .minus, .imaginaryUnit]
    WellSpelled tokens ∧ WellPlaced tokens ∧
      ((∃ value, Complex.ofTokens tokens = .ok value) ∨
        ∃ error : ArithmeticError, Complex.ofTokens tokens = .error (.arithmetic error)) := by
  intro tokens
  have spelled : WellSpelled tokens := by
    intro text member
    have named : text = "2.5" ∨ text = "3" := by simpa [tokens] using member
    rcases named with rfl | rfl
    · exact ⟨['2'], ['5'], by decide, by simp [Decimal.AllDigits], by simp [Decimal.AllDigits],
        by decide⟩
    · exact ⟨['3'], [], by decide, by simp [Decimal.AllDigits], by simp [Decimal.AllDigits],
        by decide⟩
  have inside : Path ⟨.opened, 1⟩ (tokens.drop 1) ⟨.value, 1⟩ (tokens.drop 6) :=
    .step rfl nofun (.step rfl nofun (.step rfl nofun (.step rfl nofun (.step rfl nofun .here))))
  have behind : Path ⟨.value, 0⟩ (tokens.drop 7) ⟨.value, 0⟩ [] :=
    .step rfl nofun (.step rfl nofun (.step rfl nofun (.step rfl nofun (.step rfl nofun .here))))
  have path : Path ⟨.opened, 0⟩ tokens ⟨.value, 0⟩ [] :=
    .step rfl nofun (inside.trans (.step rfl (fun _ => Nat.one_pos) behind))
  have placed : WellPlaced tokens := .of_path rfl path
  exact ⟨spelled, placed, (ofTokens_ok_wellPlaced tokens spelled).1 placed⟩

end ComplexCalculator.Grammar
