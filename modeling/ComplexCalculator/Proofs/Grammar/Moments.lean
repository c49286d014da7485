import Mathlib.Logic.Relation
import ComplexCalculator.Evaluation
import ComplexCalculator.Proofs.Grammar.Depth

/-!
The moments of a reading.

A `Moment` is where the cursor stands while tokens are read, with the calls that have begun and not
ended; `Moment.next` carries out one command. A call is of smaller depth than the calls around it
(`keeps_body`), whence the calls nest as the cursor moves on (`Sound.step`), every program comes to
its end (`runsTo_reading`), and the end is what the grammar reads.
-/

namespace ComplexCalculator.Grammar

variable {V ε : Type}

/-- A call that has begun: its rule, where the cursor was then, and how its caller goes on with the
value. -/
structure Activation (V ε : Type) where
  rule : Rule V
  entered : Nat
  resume : V → Program V ε

/-- Where the cursor is, what the innermost call has still to do, and the calls that have begun,
the innermost one first. -/
structure Moment (V ε : Type) where
  position : Nat
  program : Program V ε
  active : List (Activation V ε)

/-- The rule without the value that it continues. -/
def Rule.shape : Rule V → Rule Unit
  | .group => .group
  | .sum => .sum
  | .sumTail _ => .sumTail ()
  | .product => .product
  | .productTail _ => .productTail ()
  | .power => .power
  | .powerTail _ => .powerTail ()
  | .atom => .atom
  | .glued _ => .glued ()

theorem Rule.rank_shape (rule : Rule V) : rule.shape.rank = rule.rank := by
  cases rule <;> rfl

namespace Moment

section Steps

variable (semantics : Semantics V ε) (tokens : List Token)

/-- The moment after the next command. There is none when all is done, and none when the tokens
from the cursor on are asked for and the cursor is beyond the end. -/
def next (moment : Moment V ε) : Option (Moment V ε) :=
  match moment.program with
  | .done value =>
      match moment.active with
      | call :: outer => some ⟨moment.position, call.resume value, outer⟩
      | [] => none
  | .fail _ => none
  | .look ahead go => some { moment with program := go tokens[moment.position + ahead]? }
  | .take go =>
      match tokens[moment.position]? with
      | some token =>
          some { moment with position := moment.position + 1, program := go (some token) }
      | none => some { moment with program := go none }
  | .advance count go =>
      some { moment with position := min (moment.position + count) tokens.length, program := go }
  | .skip among go =>
      if tokens[moment.position]?.any among then
        some { moment with position := moment.position + 1 }
      else some { moment with program := go }
  | .remaining go =>
      if moment.position ≤ tokens.length then
        some { moment with program := go (tokens.drop moment.position) }
      else none
  | .operate (.ok value) go => some { moment with program := go value }
  | .operate (.error error) _ => some { moment with program := .fail (.arithmetic error) }
  | .call rule go =>
      some ⟨moment.position, .body semantics rule, ⟨rule, moment.position, go⟩ :: moment.active⟩

/-- Before the first command. -/
def start : Moment V ε := ⟨0, .call .group .closeAll, []⟩

/-- What has been read when all is done. A failure ends all calls that have begun. -/
def outcome (moment : Moment V ε) : Option (Except (Failure ε) V) :=
  match moment.program, moment.active with
  | .done value, [] => some (.ok value)
  | .fail failure, _ => some (.error failure)
  | _, _ => none

def Before (first second : Moment V ε) : Prop := first.next semantics tokens = some second

/-- One moment comes after the other, or is the same. -/
def Reaches : Moment V ε → Moment V ε → Prop := Relation.ReflTransGen (Before semantics tokens)

/-- The next command takes the token with this index. -/
def Takes (moment : Moment V ε) (index : Nat) : Prop :=
  ∃ after, Before semantics tokens moment after ∧
    moment.position ≤ index ∧ index < after.position

end Steps

section Next

variable {semantics : Semantics V ε} {tokens : List Token} {position : Nat}
variable {active : List (Activation V ε)}

theorem next_take_some {token : Token} {go : Option Token → Program V ε}
    (here : tokens[position]? = some token) :
    next semantics tokens ⟨position, .take go, active⟩ =
      some ⟨position + 1, go (some token), active⟩ := by
  simp only [next, here]

theorem next_take_none {go : Option Token → Program V ε} (outside : tokens[position]? = none) :
    next semantics tokens ⟨position, .take go, active⟩ = some ⟨position, go none, active⟩ := by
  simp only [next, outside]

theorem next_skip_found {among : Token → Bool} {go : Program V ε}
    (found : tokens[position]?.any among = true) :
    next semantics tokens ⟨position, .skip among go, active⟩ =
      some ⟨position + 1, .skip among go, active⟩ :=
  if_pos found

theorem next_skip_other {among : Token → Bool} {go : Program V ε}
    (other : ¬ tokens[position]?.any among = true) :
    next semantics tokens ⟨position, .skip among go, active⟩ = some ⟨position, go, active⟩ :=
  if_neg other

theorem next_remaining {go : List Token → Program V ε} (within : position ≤ tokens.length) :
    next semantics tokens ⟨position, .remaining go, active⟩ =
      some ⟨position, go (tokens.drop position), active⟩ :=
  if_pos within

end Next

section Cursor

variable {tokens : List Token} {position : Nat}

theorem drop_succ_of_none (outside : tokens[position]? = none) :
    tokens.drop (position + 1) = tokens.drop position := by
  have beyond := List.getElem?_eq_none_iff.mp outside
  rw [List.drop_eq_nil_of_le beyond, List.drop_eq_nil_of_le (Nat.le_succ_of_le beyond)]

theorem succ_le_of_some {token : Token} (here : tokens[position]? = some token) :
    position + 1 ≤ tokens.length :=
  (List.getElem?_eq_some_iff.mp here).1

theorem drop_advanced (count : Nat) :
    tokens.drop (min (position + count) tokens.length) = (tokens.drop position).drop count := by
  rw [List.drop_drop]
  rcases Nat.le_total (position + count) tokens.length with le | le
  · rw [Nat.min_eq_left le]
  · rw [Nat.min_eq_right le, List.drop_length, List.drop_eq_nil_of_le le]

theorem among_here {among : Token → Bool} (found : tokens[position]?.any among = true) :
    position + 1 ≤ tokens.length ∧
      (tokens.drop position).dropWhile among = (tokens.drop (position + 1)).dropWhile among := by
  cases here : tokens[position]? with
  | none => simp [here] at found
  | some token =>
      have inside := succ_le_of_some here
      have member : among token = true := by simpa [here] using found
      have split := List.drop_eq_getElem_cons inside
      rw [(List.getElem?_eq_some_iff.mp here).2] at split
      exact ⟨inside, by rw [split, List.dropWhile_cons_of_pos member]⟩

theorem not_among_here {among : Token → Bool} (other : ¬ tokens[position]?.any among = true) :
    (tokens.drop position).dropWhile among = tokens.drop position := by
  cases left : tokens.drop position with
  | nil => rfl
  | cons token rest =>
      have here : tokens[position]? = some token := by
        rw [← List.head?_drop, left, List.head?_cons]
      exact List.dropWhile_cons_of_neg (by simpa [here] using other)

end Cursor

section Runs

variable {semantics : Semantics V ε} {tokens : List Token} {position : Nat}
variable {moment after : Moment V ε} {active : List (Activation V ε)} {reading : Reading V ε}

variable (semantics tokens) in
/-- The program of the moment is carried out, without the calls around it, and reads this. -/
def RunsTo (moment : Moment V ε) : Reading V ε → Prop
  | .ok (value, rest) => ∃ stop, stop ≤ tokens.length ∧ tokens.drop stop = rest ∧
      moment.Reaches semantics tokens ⟨stop, .done value, moment.active⟩
  | .error failure => ∃ last, moment.Reaches semantics tokens last ∧ last.program = .fail failure

theorem RunsTo.of_reaches (runs : after.RunsTo semantics tokens reading)
    (reaches : moment.Reaches semantics tokens after) (same : after.active = moment.active) :
    moment.RunsTo semantics tokens reading := by
  cases reading with
  | ok result =>
      obtain ⟨stop, within, left, onward⟩ := runs
      rw [same] at onward
      exact ⟨stop, within, left, reaches.trans onward⟩
  | error failure =>
      obtain ⟨last, onward, failed⟩ := runs
      exact ⟨last, reaches.trans onward, failed⟩

theorem RunsTo.of_before (runs : after.RunsTo semantics tokens reading)
    (before : moment.Before semantics tokens after) (same : after.active = moment.active) :
    moment.RunsTo semantics tokens reading :=
  runs.of_reaches (.single before) same

theorem reaches_skip (among : Token → Bool) (go : Program V ε) (active : List (Activation V ε))
    (within : position ≤ tokens.length) :
    ∃ stop, stop ≤ tokens.length ∧ tokens.drop stop = (tokens.drop position).dropWhile among ∧
      Reaches semantics tokens ⟨position, .skip among go, active⟩ ⟨stop, go, active⟩ := by
  induction left : tokens.length - position generalizing position with
  | zero =>
      have other : ¬ tokens[position]?.any among = true := by
        rw [List.getElem?_eq_none_iff.mpr (by omega)]
        exact Bool.false_ne_true
      exact ⟨position, within, (not_among_here other).symm, .single (next_skip_other other)⟩
  | succ left ih =>
      by_cases found : tokens[position]?.any among = true
      · obtain ⟨inside, same⟩ := among_here found
        obtain ⟨stop, stopWithin, skipped, onward⟩ := ih inside (by omega)
        exact ⟨stop, stopWithin, skipped.trans same.symm, .head (next_skip_found found) onward⟩
      · exact ⟨position, within, (not_among_here found).symm, .single (next_skip_other found)⟩

/-- A program is carried out to its end, and reads what it should. -/
theorem runsTo_reading {depth limit : Nat} {program : Program V ε}
    (within : position ≤ tokens.length)
    (keeps : program.Keeps depth limit (tokens.drop position)) :
    RunsTo semantics tokens ⟨position, program, active⟩
      (program.reading (read semantics) (tokens.drop position)) := by
  -- on the depth for the calls, and on the program for what a call goes on with
  induction depth using Nat.strongRecOn generalizing position program active limit with
  | ind depth deeper =>
  induction program generalizing position with
  | done value => exact ⟨position, within, rfl, .refl⟩
  | fail failure => exact ⟨_, .refl, rfl⟩
  | look ahead go ih =>
      simp only [Program.Keeps, Program.reading, List.getElem?_drop] at keeps ⊢
      exact (ih _ within keeps).of_before rfl rfl
  | take go ih =>
      simp only [Program.Keeps, Program.reading, List.head?_drop, List.tail_drop] at keeps ⊢
      cases here : tokens[position]? with
      | none =>
          rw [here, drop_succ_of_none here] at keeps
          rw [drop_succ_of_none here]
          exact (ih none within keeps).of_before (next_take_none here) rfl
      | some token =>
          rw [here] at keeps
          have taken := ih (some token) (succ_le_of_some here) keeps
          exact taken.of_before (next_take_some here) rfl
  | advance count go ih =>
      simp only [Program.Keeps, Program.reading, ← drop_advanced] at keeps ⊢
      exact (ih (Nat.min_le_right _ _) keeps).of_before rfl rfl
  | skip among go ih =>
      obtain ⟨stop, stopWithin, skipped, onward⟩ := reaches_skip among go active within
      simp only [Program.Keeps, Program.reading, ← skipped] at keeps ⊢
      exact (ih stopWithin keeps).of_reaches onward rfl
  | remaining go ih =>
      exact (ih _ within keeps).of_before (next_remaining within) rfl
  | operate result go ih =>
      cases result with
      | ok value => exact (ih value within (keeps value)).of_before rfl rfl
      | error error => exact ⟨_, .single rfl, rfl⟩
  | call rule go ih =>
      obtain ⟨smaller, resumes⟩ := keeps
      have called : RunsTo semantics tokens
          ⟨position, .body semantics rule, ⟨rule, position, go⟩ :: active⟩
          (read semantics rule (tokens.drop position)) := by
        rw [read_eq_step, ← Program.reading_body]
        exact deeper _ smaller within (Program.keeps_body semantics rule _)
      simp only [Program.reading]
      cases found : read semantics rule (tokens.drop position) with
      | error failure =>
          rw [found] at called
          obtain ⟨last, onward, failed⟩ := called
          exact ⟨last, .head rfl onward, failed⟩
      | ok result =>
          obtain ⟨value, rest⟩ := result
          rw [found] at called
          obtain ⟨stop, stopWithin, rfl, onward⟩ := called
          have le := read_leaves semantics rule (tokens.drop position) value _ found
          refine (ih value stopWithin (resumes value _ le)).of_reaches ?_ rfl
          exact .head rfl (onward.tail rfl)

end Runs

section Nesting

variable {semantics : Semantics V ε} {tokens : List Token} {position : Nat}
variable {moment after : Moment V ε} {active : List (Activation V ε)}

/-- The depth that is left to the calls of the innermost call. -/
def depthWithin (tokens : List Token) : List (Activation V ε) → Nat
  | [] => callDepth (.group : Rule V) tokens + 1
  | call :: _ => callDepth call.rule (tokens.drop call.entered)

/-- How many tokens the innermost call may leave. -/
def leftoverWithin (tokens : List Token) : List (Activation V ε) → Nat
  | [] => tokens.length
  | call :: _ => call.rule.leftover (tokens.drop call.entered)

/-- The calls that have begun before the cursor came to the position, one in the other: each is of
smaller depth than the one around it, which keeps to its own depth when it goes on. -/
inductive Nested (tokens : List Token) : Nat → List (Activation V ε) → Prop where
  | outermost {position : Nat} : Nested tokens position []
  | inside {position : Nat} {call : Activation V ε} {outer : List (Activation V ε)}
      (entered : call.entered ≤ position)
      (smaller : callDepth call.rule (tokens.drop call.entered) < depthWithin tokens outer)
      (resumes : ∀ value rest, rest.length ≤ call.rule.leftover (tokens.drop call.entered) →
        (call.resume value).Keeps (depthWithin tokens outer) (leftoverWithin tokens outer) rest)
      (around : Nested tokens call.entered outer) : Nested tokens position (call :: outer)

structure Sound (tokens : List Token) (moment : Moment V ε) : Prop where
  within : moment.position ≤ tokens.length
  keeps : moment.program.Keeps (depthWithin tokens moment.active)
    (leftoverWithin tokens moment.active) (tokens.drop moment.position)
  nested : Nested tokens moment.position moment.active

theorem Nested.mono {later : Nat} (nested : Nested tokens position active)
    (le : position ≤ later) : Nested tokens later active := by
  cases nested with
  | outermost => exact .outermost
  | inside entered smaller resumes around => exact .inside (entered.trans le) smaller resumes around

theorem sound_start (tokens : List Token) : (start : Moment V ε).Sound tokens where
  within := Nat.zero_le _
  keeps := by
    refine ⟨Nat.lt_succ_self _, ?_⟩
    intro value rest le
    simp only [Program.closeAll, Program.Keeps]
    cases rest[0]? with
    | none => exact le
    | some token => trivial
  nested := .outermost

/-- A command keeps the calls nested, and does not move the cursor back. -/
theorem Sound.step (sound : moment.Sound tokens)
    (before : moment.Before semantics tokens after) :
    after.Sound tokens ∧ moment.position ≤ after.position := by
  obtain ⟨position, program, active⟩ := moment
  obtain ⟨within, keeps, nested⟩ := sound
  cases program with
  | done value =>
      cases active with
      | nil => contradiction
      | cons call outer =>
          cases before
          cases nested with
          | inside entered smaller resumes around =>
              exact ⟨⟨within, resumes value _ keeps, around.mono entered⟩, le_rfl⟩
  | fail failure => contradiction
  | look ahead go =>
      cases before
      simp only [Program.Keeps, List.getElem?_drop] at keeps
      exact ⟨⟨within, keeps, nested⟩, le_rfl⟩
  | take go =>
      simp only [Program.Keeps, List.head?_drop, List.tail_drop] at keeps
      cases here : tokens[position]? with
      | none =>
          rw [here, drop_succ_of_none here] at keeps
          cases (next_take_none here).symm.trans before
          exact ⟨⟨within, keeps, nested⟩, le_rfl⟩
      | some token =>
          rw [here] at keeps
          cases (next_take_some here).symm.trans before
          have moved := Nat.le_succ position
          exact ⟨⟨succ_le_of_some here, keeps, nested.mono moved⟩, moved⟩
  | advance count go =>
      cases before
      simp only [Program.Keeps, ← drop_advanced] at keeps
      have moved : position ≤ min (position + count) tokens.length :=
        Nat.le_min.mpr ⟨Nat.le_add_right _ _, within⟩
      exact ⟨⟨Nat.min_le_right _ _, keeps, nested.mono moved⟩, moved⟩
  | skip among go =>
      simp only [Program.Keeps] at keeps
      by_cases found : tokens[position]?.any among = true
      · cases (next_skip_found found).symm.trans before
        obtain ⟨inside, same⟩ := among_here found
        rw [same] at keeps
        have moved := Nat.le_succ position
        exact ⟨⟨inside, keeps, nested.mono moved⟩, moved⟩
      · cases (next_skip_other found).symm.trans before
        rw [not_among_here found] at keeps
        exact ⟨⟨within, keeps, nested⟩, le_rfl⟩
  | remaining go =>
      cases (next_remaining within).symm.trans before
      exact ⟨⟨within, keeps, nested⟩, le_rfl⟩
  | operate result go =>
      cases result with
      | ok value =>
          cases before
          exact ⟨⟨within, keeps value, nested⟩, le_rfl⟩
      | error error =>
          cases before
          exact ⟨⟨within, trivial, nested⟩, le_rfl⟩
  | call rule go =>
      cases before
      obtain ⟨smaller, resumes⟩ := keeps
      have keeps := Program.keeps_body semantics rule (tokens.drop position)
      exact ⟨⟨within, keeps, .inside le_rfl smaller resumes nested⟩, le_rfl⟩

theorem Sound.reaches (sound : moment.Sound tokens)
    (reaches : moment.Reaches semantics tokens after) :
    after.Sound tokens ∧ moment.position ≤ after.position := by
  induction reaches with
  | refl => exact ⟨sound, le_rfl⟩
  | tail _ before ih =>
      obtain ⟨sound, le⟩ := ih
      obtain ⟨sound, moved⟩ := sound.step before
      exact ⟨sound, le.trans moved⟩

/-- A moment is followed by another one until all is done: the cursor is never beyond the end when
the tokens behind it are asked for. -/
theorem Sound.exists_next (sound : moment.Sound tokens) (unfinished : moment.outcome = none) :
    ∃ after, moment.Before semantics tokens after := by
  obtain ⟨position, program, active⟩ := moment
  have within : position ≤ tokens.length := sound.within
  cases program with
  | done value =>
      cases active with
      | nil => contradiction
      | cons call outer => exact ⟨_, rfl⟩
  | fail failure => contradiction
  | take go =>
      cases here : tokens[position]? with
      | none => exact ⟨_, next_take_none here⟩
      | some token => exact ⟨_, next_take_some here⟩
  | skip among go =>
      by_cases found : tokens[position]?.any among = true
      · exact ⟨_, next_skip_found found⟩
      · exact ⟨_, next_skip_other found⟩
  | remaining go => exact ⟨_, next_remaining within⟩
  | operate result go => cases result <;> exact ⟨_, rfl⟩
  | look ahead go => exact ⟨_, rfl⟩
  | advance count go => exact ⟨_, rfl⟩
  | call rule go => exact ⟨_, rfl⟩

theorem Nested.entered_le (nested : Nested tokens position active) :
    ∀ call ∈ active, call.entered ≤ position := by
  induction nested with
  | outermost => simp
  | inside entered smaller resumes around ih =>
      intro call member
      rcases List.mem_cons.mp member with rfl | member
      · exact entered
      · exact (ih call member).trans entered

theorem Nested.depthWithin_le (nested : Nested tokens position active) :
    ∀ call ∈ active,
      depthWithin tokens active ≤ callDepth call.rule (tokens.drop call.entered) := by
  induction nested with
  | outermost => simp
  | inside entered smaller resumes around ih =>
      intro call member
      rcases List.mem_cons.mp member with rfl | member
      · exact le_rfl
      · exact smaller.le.trans (ih call member)

/-- A call that begins where another one of its rule began is not of smaller depth. -/
theorem entered_lt_of_depth {inner outer : Activation V ε} (le : outer.entered ≤ inner.entered)
    (within : inner.entered ≤ tokens.length) (same : inner.rule.shape = outer.rule.shape)
    (smaller : callDepth inner.rule (tokens.drop inner.entered) <
      callDepth outer.rule (tokens.drop outer.entered)) : outer.entered < inner.entered := by
  have ranks : inner.rule.rank = outer.rule.rank := by
    rw [← Rule.rank_shape, same, Rule.rank_shape]
  simp only [callDepth, List.length_drop] at smaller
  omega

theorem Nested.pairwise (nested : Nested tokens position active)
    (within : position ≤ tokens.length) :
    active.Pairwise fun inner outer => outer.entered ≤ inner.entered ∧
      (inner.rule.shape = outer.rule.shape → outer.entered < inner.entered) := by
  induction nested with
  | outermost => exact .nil
  | inside entered smaller resumes around ih =>
      have within := entered.trans within
      refine .cons ?_ (ih within)
      intro outer member
      have le := around.entered_le outer member
      have depth := smaller.trans_le (around.depthWithin_le outer member)
      exact ⟨le, fun same => entered_lt_of_depth le within same depth⟩

theorem next_of_outcome {result : Except (Failure ε) V} (finished : moment.outcome = some result) :
    moment.next semantics tokens = none := by
  obtain ⟨position, program, active⟩ := moment
  cases program with
  | done value =>
      cases active with
      | nil => rfl
      | cons call outer => contradiction
  | fail failure => rfl
  | _ => contradiction

/-- Reading comes to an end, with the value or the failure of the tokens. -/
theorem exists_last (semantics : Semantics V ε) (tokens : List Token) :
    ∃ last, Reaches semantics (tokens ++ [.closing]) .start last ∧
      last.outcome = some (parse semantics tokens) := by
  have sound : (start : Moment V ε).Sound (tokens ++ [.closing]) := sound_start _
  have runs : start.RunsTo semantics (tokens ++ [.closing]) _ :=
    runsTo_reading sound.within sound.keeps
  have parsed := Program.reading_closeAll tokens semantics
  rw [List.drop_zero] at runs
  generalize Program.reading _ _ _ = reading at runs parsed
  cases reading with
  | ok result =>
      obtain ⟨stop, -, -, reaches⟩ := runs
      exact ⟨_, reaches, congrArg some parsed⟩
  | error failure =>
      obtain ⟨⟨position, program, active⟩, reaches, rfl⟩ := runs
      exact ⟨_, reaches, congrArg some parsed⟩

/-- Of two moments of a reading one comes after the other. -/
theorem reaches_total {first second : Moment V ε}
    (reaches : Reaches semantics tokens moment first)
    (reaches' : Reaches semantics tokens moment second) :
    Reaches semantics tokens first second ∨ Reaches semantics tokens second first := by
  refine Relation.ReflTransGen.total_of_right_unique ?_ reaches reaches'
  intro moment first second before before'
  exact Option.some.inj (before.symm.trans before')

theorem eq_of_outcome {last later : Moment V ε} {result : Except (Failure ε) V}
    (finished : last.outcome = some result) (onward : Reaches semantics tokens last later) :
    later = last := by
  cases onward.cases_head with
  | inl same => exact same.symm
  | inr more =>
      obtain ⟨after, before, -⟩ := more
      rw [Before, next_of_outcome finished] at before
      contradiction

/-- A token that has been taken stays behind the cursor. -/
theorem Sound.eq_of_takes {other : Moment V ε} {index : Nat} (sound : moment.Sound tokens)
    (takes : moment.Takes semantics tokens index) (takes' : other.Takes semantics tokens index)
    (reaches : Reaches semantics tokens moment other) : other = moment := by
  cases reaches.cases_head with
  | inl same => exact same.symm
  | inr more =>
      obtain ⟨after, before, onward⟩ := more
      obtain ⟨after', same, -, behind⟩ := takes
      obtain ⟨-, -, ahead, -⟩ := takes'
      obtain rfl : after = after' := Option.some.inj (before.symm.trans same)
      have le := ((sound.step before).1.reaches onward).2
      omega

end Nesting

end Moment

/-- Whatever the tokens, reading them ends with their value or their failure. Until then no moment
is the last one, and the cursor, which never moves back, stands at a token or behind the last one;
each call began no further back than the calls around it, and further on than those of its own rule;
and no token is taken twice. -/
theorem ofTokens_advances (tokens : List Token) :
    let whole := tokens ++ [Token.closing]
    let Reaches := Moment.Reaches Complex.semantics whole
    ∀ moment, Reaches .start moment →
      (∃ last, Reaches moment last ∧ last.outcome = some (Complex.ofTokens tokens)) ∧
      (moment.outcome = none → ∃ after, moment.Before Complex.semantics whole after) ∧
      moment.position ≤ tokens.length + 1 ∧
      (∀ later, Reaches moment later → moment.position ≤ later.position) ∧
      (∀ call ∈ moment.active, call.entered ≤ moment.position) ∧
      (moment.active.Pairwise fun inner outer => outer.entered ≤ inner.entered ∧
        (inner.rule.shape = outer.rule.shape → outer.entered < inner.entered)) ∧
      ∀ index other, Reaches .start other → moment.Takes Complex.semantics whole index →
        other.Takes Complex.semantics whole index → other = moment := by
  intro whole Reaches moment reached
  have sound : moment.Sound whole := ((Moment.sound_start whole).reaches reached).1
  obtain ⟨last, ends, finished⟩ := Moment.exists_last Complex.semantics tokens
  refine ⟨⟨last, ?_, finished⟩, sound.exists_next, ?_, ?_, sound.nested.entered_le,
    sound.nested.pairwise sound.within, ?_⟩
  · rcases Moment.reaches_total reached ends with onward | onward
    · exact onward
    · exact Moment.eq_of_outcome finished onward ▸ .refl
  · simpa [whole] using sound.within
  · intro later onward
    exact (sound.reaches onward).2
  · intro index other reached' takes takes'
    have sound' : other.Sound whole := ((Moment.sound_start whole).reaches reached').1
    rcases Moment.reaches_total reached reached' with onward | onward
    · exact sound.eq_of_takes takes takes' onward
    · exact (sound'.eq_of_takes takes' takes onward).symm

/-- In the tokens of `(j` a group is read inside of a group, one token further on. It takes the last
parenthesis, which the outer group then misses. -/
theorem ofTokens_advances_unclosed :
    let tokens := [.opening, .imaginaryUnit]
    let whole := tokens ++ [Token.closing]
    let Reaches := Moment.Reaches Complex.semantics whole
    ∃ moment, Reaches .start moment ∧
      moment.active.map (fun call => (call.rule, call.entered)) =
        [(.group, 1), (.atom, 0), (.power, 0), (.product, 0), (.sum, 0), (.group, 0)] ∧
      (∃ last, Reaches moment last ∧ last.outcome = some (.error (.malformed .unclosed))) ∧
      moment.position ≤ 3 ∧ ∀ call ∈ moment.active, call.entered ≤ moment.position := by
  intro tokens whole Reaches
  have reached : ∃ moment, Reaches .start moment ∧
      moment.active.map (fun call => (call.rule, call.entered)) =
        [(.group, 1), (.atom, 0), (.power, 0), (.product, 0), (.sum, 0), (.group, 0)] := by
    refine ⟨?moment, ?reached, ?active⟩
    case reached =>
      -- to the call of the inner group
      iterate 12 refine .head rfl ?_
      exact .refl
    case active => rfl
  obtain ⟨moment, reached, active⟩ := reached
  obtain ⟨ends, -, within, -, entered, -⟩ := ofTokens_advances tokens moment reached
  exact ⟨moment, reached, active, ends, within, entered⟩

end ComplexCalculator.Grammar
