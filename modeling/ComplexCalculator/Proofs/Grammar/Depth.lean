import Mathlib.Data.Nat.Basic
import Mathlib.Order.Basic
import ComplexCalculator.Proofs.Grammar.Cursor

/-!
The bound on nested calls suffices.

A rule calls any rule behind a token that it has taken, and rules of lower rank before, so that
the calls are of smaller depth (`keeps_body`). It follows that no rule leaves more tokens than it
was given, and that reading satisfies the equations of the grammar without any bound:
`read_eq_step`.
-/

namespace ComplexCalculator.Grammar

variable {V ε : Type}

/-- A reading leaves at most `bound` tokens. -/
def Reading.Leaves (reading : Reading V ε) (bound : Nat) : Prop :=
  ∀ value rest, reading = .ok (value, rest) → rest.length ≤ bound

/-- How many tokens a rule may leave. An atom takes a token when there is one. -/
def Rule.leftover : Rule V → List Token → Nat
  | .atom, tokens => tokens.length - 1
  | _, tokens => tokens.length

theorem Rule.leftover_le (rule : Rule V) (tokens : List Token) :
    rule.leftover tokens ≤ tokens.length := by
  cases rule <;> simp [Rule.leftover]

theorem Rule.le_leftover {tokens entry : List Token} (rule : Rule V)
    (fewer : tokens.length < entry.length) : tokens.length ≤ rule.leftover entry := by
  cases rule <;> simp only [Rule.leftover] <;> omega

theorem length_skipSpaces_le (tokens : List Token) :
    (skipSpaces tokens).length ≤ tokens.length := by
  fun_induction skipSpaces tokens with
  | case1 rest ih => exact Nat.le_succ_of_le ih
  | case2 rest => exact Nat.le_refl _

theorem Rule.rank_le (rule : Rule V) : rule.rank ≤ 5 := by
  cases rule <;> simp [Rule.rank]

/-- A call on fewer tokens is of smaller depth, whatever its rule. -/
theorem callDepth_lt_of_length {called rule : Rule V} {left tokens : List Token}
    (fewer : left.length < tokens.length) : callDepth called left < callDepth rule tokens := by
  have low := called.rank_le
  unfold callDepth
  omega

/-- A call of lower rank is of smaller depth, if it is on no more tokens. -/
theorem callDepth_lt_of_rank {called rule : Rule V} {left tokens : List Token}
    (le : left.length ≤ tokens.length) (lower : called.rank < rule.rank) :
    callDepth called left < callDepth rule tokens := by
  unfold callDepth
  omega

namespace Program

section Calls

variable {semantics : Semantics V ε} {depth limit : Nat} {caller called : Rule V}
variable {entry tokens rest : List Token} {token : Token}

/-- The calls of a program are of smaller depth than `depth`, and it leaves no more than `limit`
tokens when it is done. -/
@[simp]
def Keeps (depth limit : Nat) : Program V ε → List Token → Prop
  | done _, tokens => tokens.length ≤ limit
  | fail _, _ => True
  | look ahead next, tokens => (next tokens[ahead]?).Keeps depth limit tokens
  | take next, tokens => (next tokens.head?).Keeps depth limit tokens.tail
  | advance count next, tokens => next.Keeps depth limit (tokens.drop count)
  | skip among next, tokens => next.Keeps depth limit (tokens.dropWhile among)
  | remaining next, tokens => (next tokens).Keeps depth limit tokens
  | operate _ next, tokens => ∀ value, (next value).Keeps depth limit tokens
  | call rule next, tokens => callDepth rule tokens < depth ∧
      ∀ value rest, rest.length ≤ rule.leftover tokens → (next value).Keeps depth limit rest

/-- What a program keeps as the one of a rule that is called on the tokens `entry`. -/
abbrev KeepsWithin (program : Program V ε) (caller : Rule V) (entry tokens : List Token) : Prop :=
  program.Keeps (callDepth caller entry) (caller.leftover entry) tokens

/-- Once a token has been taken, a rule may call any other, whatever else it does. -/
theorem keepsWithin_of_fewer (program : Program V ε) (fewer : tokens.length < entry.length) :
    program.KeepsWithin caller entry tokens := by
  induction program generalizing tokens with
  | done value => exact caller.le_leftover fewer
  | fail failure => trivial
  | look ahead next ih => exact ih _ fewer
  | take next ih => exact ih _ ((List.tail_suffix tokens).length_le.trans_lt fewer)
  | advance count next ih => exact ih ((List.drop_suffix count tokens).length_le.trans_lt fewer)
  | skip among next ih => exact ih ((List.dropWhile_suffix among).length_le.trans_lt fewer)
  | remaining next ih => exact ih _ fewer
  | operate result next ih => exact fun value => ih value fewer
  | call called next ih =>
      refine ⟨callDepth_lt_of_length fewer, ?_⟩
      intro value rest left
      exact ih value ((left.trans (called.leftover_le tokens)).trans_lt fewer)

theorem keepsWithin_take {next : Option Token → Program V ε} (fewer : rest.length < entry.length) :
    (take next).KeepsWithin caller entry (token :: rest) :=
  keepsWithin_of_fewer (next (some token)) fewer

theorem keeps_call (smaller : callDepth called tokens < depth) (le : tokens.length ≤ limit) :
    (call called done : Program V ε).Keeps depth limit tokens :=
  ⟨smaller, fun _ _ left => left.trans ((called.leftover_le tokens).trans le)⟩

theorem keeps_front {among : Token → Bool} {next : Option Token → Program V ε}
    (nothing : (next none).Keeps depth limit [])
    (something : ∀ token rest, rest.length < tokens.length →
      (next (some token)).Keeps depth limit (token :: rest)) :
    (skip among (look 0 next)).Keeps depth limit tokens := by
  have skipped : (tokens.dropWhile among).length ≤ tokens.length :=
    (List.dropWhile_suffix among).length_le
  change (next (tokens.dropWhile among)[0]?).Keeps depth limit (tokens.dropWhile among)
  cases front : tokens.dropWhile among with
  | nil => exact nothing
  | cons token rest =>
      rw [front] at skipped
      exact something token rest skipped

theorem keeps_closeGroup (value : V) (le : tokens.length ≤ limit) :
    (closeGroup value : Program V ε).Keeps depth limit tokens := by
  have skipped := length_skipSpaces_le tokens
  simp only [closeGroup, Keeps, dropWhile_isSpace]
  cases front : skipSpaces tokens with
  | nil => trivial
  | cons token rest =>
      rw [front, List.length_cons] at skipped
      cases token with
      | closing => exact (Nat.le_of_succ_le skipped).trans le
      | _ => trivial

theorem keeps_group : (body semantics .group).KeepsWithin .group tokens tokens := by
  have closes {called : Rule V} {left : List Token} (le : left.length ≤ tokens.length)
      (lower : called.rank < (.group : Rule V).rank) :
      (call called closeGroup : Program V ε).KeepsWithin .group tokens left := by
    refine ⟨callDepth_lt_of_rank le lower, ?_⟩
    intro value rest shorter
    exact keeps_closeGroup value (shorter.trans ((called.leftover_le left).trans le))
  refine keeps_front (Nat.zero_le _) ?_
  intro token rest fewer
  cases token with
  | closing => exact keepsWithin_take fewer
  | _ => exact closes fewer (by simp [Rule.rank])

theorem keeps_sum : (body semantics .sum).KeepsWithin .sum tokens tokens := by
  have terms {left : List Token} (le : left.length ≤ tokens.length) :
      (call .product fun first => call (.sumTail first) done : Program V ε).KeepsWithin
        .sum tokens left := by
    refine ⟨callDepth_lt_of_rank le (by simp [Rule.rank]), ?_⟩
    intro first rest shorter
    have le := shorter.trans le
    exact keeps_call (callDepth_lt_of_rank le (by simp [Rule.rank])) le
  refine keeps_front (terms (Nat.zero_le _)) ?_
  intro token rest fewer
  cases token with
  | plus => exact keepsWithin_take fewer
  | minus => exact keeps_call (callDepth_lt_of_rank fewer (by simp [Rule.rank])) fewer
  | _ => exact terms fewer

theorem keeps_sumTail (left : V) :
    (body semantics (.sumTail left)).KeepsWithin (.sumTail left) tokens tokens := by
  refine keeps_front (Nat.zero_le _) ?_
  intro token rest fewer
  cases token with
  | plus | minus => exact keepsWithin_take fewer
  | _ => exact fewer

theorem keeps_product : (body semantics .product).KeepsWithin .product tokens tokens := by
  refine ⟨callDepth_lt_of_rank le_rfl (by simp [Rule.rank]), ?_⟩
  intro left rest shorter
  exact keeps_call (callDepth_lt_of_rank shorter (by simp [Rule.rank])) shorter

theorem keeps_productTail (left : V) :
    (body semantics (.productTail left)).KeepsWithin (.productTail left) tokens tokens := by
  refine keeps_front (Nat.zero_le _) ?_
  intro token rest fewer
  have factor : (if ends (some token) then done left else
      call .atom fun factor => operate (semantics.mul left factor) fun product =>
      call (.glued product) fun group => call (.powerTail group) fun group =>
      call (.productTail group) done).KeepsWithin (.productTail left) tokens (token :: rest) := by
    split
    · exact fewer
    · refine ⟨callDepth_lt_of_rank fewer (by simp [Rule.rank]), ?_⟩
      -- the atom has taken a token, so that the rest of the rule may call the rule again
      intro factor behind shorter
      exact keepsWithin_of_fewer _ (shorter.trans_lt fewer)
  cases token with
  | star | slash => exact keepsWithin_take fewer
  | _ => exact factor

theorem keeps_power : (body semantics .power).KeepsWithin .power tokens tokens := by
  refine ⟨callDepth_lt_of_rank le_rfl (by simp [Rule.rank]), ?_⟩
  intro base rest shorter
  have le := shorter.trans (Rule.leftover_le .atom tokens)
  exact keeps_call (callDepth_lt_of_rank le (by simp [Rule.rank])) le

theorem keeps_powerTail (base : V) :
    (body semantics (.powerTail base)).KeepsWithin (.powerTail base) tokens tokens := by
  refine keeps_front (Nat.zero_le _) ?_
  intro token rest fewer
  cases token with
  | caret => exact keepsWithin_take fewer
  | _ => exact fewer

theorem keeps_atom : (body semantics .atom).KeepsWithin .atom tokens tokens := by
  have skipped := length_skipSpaces_le tokens
  simp only [body, KeepsWithin, Keeps, dropWhile_isSpace]
  cases front : skipSpaces tokens with
  | nil => exact Nat.zero_le _
  | cons token rest =>
      rw [front, List.length_cons] at skipped
      exact keepsWithin_of_fewer _ skipped

theorem keeps_glued (value : V) :
    (body semantics (.glued value)).KeepsWithin (.glued value) tokens tokens := by
  simp only [body, KeepsWithin, Keeps]
  split
  · exact le_rfl
  · refine ⟨callDepth_lt_of_rank le_rfl (by simp [Rule.rank]), ?_⟩
    intro factor rest shorter product
    exact shorter.trans (Rule.leftover_le .atom tokens)

/-- A rule calls rules of smaller depth only: any rule behind a token that it has taken, and rules
of lower rank before. -/
theorem keeps_body (semantics : Semantics V ε) (rule : Rule V) (tokens : List Token) :
    (body semantics rule).KeepsWithin rule tokens tokens := by
  cases rule with
  | group => exact keeps_group
  | sum => exact keeps_sum
  | sumTail left => exact keeps_sumTail left
  | product => exact keeps_product
  | productTail left => exact keeps_productTail left
  | power => exact keeps_power
  | powerTail base => exact keeps_powerTail base
  | atom => exact keeps_atom
  | glued value => exact keeps_glued value

end Calls

section Readings

variable {reader reader' : Rule V → List Token → Reading V ε} {depth limit : Nat}
variable {program : Program V ε} {tokens : List Token}
variable (leaves : ∀ rule tokens, (reader rule tokens).Leaves (rule.leftover tokens))

include leaves

/-- A program leaves no more tokens than it may, if the rules that it calls do. -/
theorem reading_leaves (keeps : program.Keeps depth limit tokens) :
    (program.reading reader tokens).Leaves limit := by
  induction program generalizing tokens with
  | done value =>
      intro _ _ read
      cases read
      exact keeps
  | fail failure => exact nofun
  | look ahead next ih => exact ih _ keeps
  | take next ih => exact ih _ keeps
  | advance count next ih => exact ih keeps
  | skip among next ih => exact ih keeps
  | remaining next ih => exact ih _ keeps
  | operate result next ih =>
      cases result with
      | error error => exact nofun
      | ok value => exact ih value (keeps value)
  | call called next ih =>
      simp only [reading]
      cases read : reader called tokens with
      | error failure => exact nofun
      | ok result => exact ih result.1 (keeps.2 _ _ (leaves called tokens _ _ read))

/-- What a program reads depends only on the calls of smaller depth. -/
theorem reading_congr (keeps : program.Keeps depth limit tokens)
    (calls : ∀ called left, callDepth called left < depth → reader called left = reader' called left) :
    program.reading reader tokens = program.reading reader' tokens := by
  induction program generalizing tokens with
  | done value => rfl
  | fail failure => rfl
  | look ahead next ih => exact ih _ keeps
  | take next ih => exact ih _ keeps
  | advance count next ih => exact ih keeps
  | skip among next ih => exact ih keeps
  | remaining next ih => exact ih _ keeps
  | operate result next ih =>
      cases result with
      | error error => rfl
      | ok value => exact ih value (keeps value)
  | call called next ih =>
      simp only [reading, ← calls called tokens keeps.1]
      cases read : reader called tokens with
      | error failure => rfl
      | ok result => exact ih result.1 (keeps.2 _ _ (leaves called tokens _ _ read))

end Readings

end Program

section Steps

variable {semantics : Semantics V ε} {reader reader' : Rule V → List Token → Reading V ε}
variable (leaves : ∀ rule tokens, (reader rule tokens).Leaves (rule.leftover tokens))

include leaves

theorem step_leaves (rule : Rule V) (tokens : List Token) :
    (step semantics reader rule tokens).Leaves (rule.leftover tokens) := by
  rw [← Program.reading_body]
  exact Program.reading_leaves leaves (Program.keeps_body semantics rule tokens)

theorem step_congr (rule : Rule V) (tokens : List Token)
    (calls : ∀ called left, callDepth called left < callDepth rule tokens →
      reader called left = reader' called left) :
    step semantics reader rule tokens = step semantics reader' rule tokens := by
  rw [← Program.reading_body, ← Program.reading_body]
  exact Program.reading_congr leaves (Program.keeps_body semantics rule tokens) calls

end Steps

theorem readWithin_leaves (semantics : Semantics V ε) (depth : Nat) (rule : Rule V)
    (tokens : List Token) :
    (readWithin semantics depth rule tokens).Leaves (rule.leftover tokens) := by
  induction depth generalizing rule tokens with
  | zero => exact nofun
  | succ depth ih => exact step_leaves ih rule tokens

/-- Reading leaves no more tokens than it was given, and an atom takes one if it can. -/
theorem read_leaves (semantics : Semantics V ε) (rule : Rule V) (tokens : List Token) :
    (read semantics rule tokens).Leaves (rule.leftover tokens) :=
  readWithin_leaves semantics _ rule tokens

theorem callDepth_pos (rule : Rule V) (tokens : List Token) : 0 < callDepth rule tokens :=
  Nat.succ_pos _

/-- Beyond the bound the depth makes no difference. -/
theorem readWithin_eq {semantics : Semantics V ε} {depth depth' : Nat} {rule : Rule V}
    {tokens : List Token} (enough : callDepth rule tokens ≤ depth)
    (enough' : callDepth rule tokens ≤ depth') :
    readWithin semantics depth rule tokens = readWithin semantics depth' rule tokens := by
  induction depth generalizing depth' rule tokens with
  | zero => exact absurd (callDepth_pos rule tokens) (by omega)
  | succ depth ih =>
      cases depth' with
      | zero => exact absurd (callDepth_pos rule tokens) (by omega)
      | succ depth' =>
          exact step_congr (readWithin_leaves semantics depth) rule tokens
            fun called left smaller => ih (by omega) (by omega)

/-- Reading satisfies the equations of the grammar. -/
theorem read_eq_step (semantics : Semantics V ε) (rule : Rule V) (tokens : List Token) :
    read semantics rule tokens = step semantics (read semantics) rule tokens := by
  obtain ⟨depth, bound⟩ := Nat.exists_eq_succ_of_ne_zero
    (Nat.ne_of_gt (callDepth_pos rule tokens))
  unfold read
  rw [bound]
  exact step_congr (readWithin_leaves semantics depth) rule tokens
    fun called left smaller => readWithin_eq (by omega) (Nat.le_refl _)

end ComplexCalculator.Grammar
