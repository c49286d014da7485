import Mathlib
import ComplexCalculator.Proofs.Calculator.Selection

namespace ComplexCalculator

namespace Entry

variable {entry front text : List Char} {c : Char}

theorem stripSpaces_concat_space (entry : List Char) :
    stripSpaces (entry ++ [' ']) = stripSpaces entry :=
  List.rdropWhile_concat_pos _ _ _ rfl

theorem stripSpaces_stripSpaces (entry : List Char) :
    stripSpaces (stripSpaces entry) = stripSpaces entry :=
  List.rdropWhile_idempotent _ _

theorem stripSpaces_append (nonempty : text ≠ []) (visible : ∀ c ∈ text, c ≠ ' ')
    (front : List Char) : stripSpaces (front ++ text) = front ++ text := by
  refine List.rdropWhile_eq_self_iff.mpr fun _ => ?_
  rw [List.getLast_append_of_ne_nil _ nonempty]
  simpa using visible _ (List.getLast_mem nonempty)

theorem deleteChars_stripSpaces (entry : List Char) :
    deleteChars (stripSpaces entry) = deleteChars entry := by
  rw [deleteChars, stripSpaces_stripSpaces, deleteChars]

theorem stripSpaces_deleteChars (entry : List Char) :
    stripSpaces (deleteChars entry) = deleteChars entry :=
  stripSpaces_stripSpaces _

/-- A character that no longer symbol ends with is dropped alone. -/
theorem dropSymbol_concat (single : c ∉ ['(', 'i', 'π']) (entry : List Char) :
    dropSymbol (entry ++ [c]) = entry := by
  simp only [List.mem_cons, List.not_mem_nil, or_false, not_or] at single
  obtain ⟨notOpening, notI, notPi⟩ := single
  simp [dropSymbol, wholeSymbols, List.isSuffixOf, List.isPrefixOf, Ne.symm notOpening,
    Ne.symm notI, Ne.symm notPi]

/-- A parenthesis that stands behind no letter is not the end of a function name. -/
theorem dropSymbol_opening (apart : ∀ c ∈ front.getLast?, c.isAlphanum = false) :
    dropSymbol (front ++ ['(']) = front := by
  rcases List.eq_nil_or_concat front with rfl | ⟨before, last, rfl⟩
  · rfl
  · have other := apart last (by simp)
    have notP : 'p' ≠ last := by rintro rfl; contradiction
    have notN : 'n' ≠ last := by rintro rfl; contradiction
    simp [dropSymbol, wholeSymbols, List.isSuffixOf, List.isPrefixOf, notP, notN]

theorem isBlank_of_visible (low : 33 ≤ c.toNat) (high : c.toNat ≤ 126) :
    Text.isBlank c = false := by
  simp only [Text.isBlank, Text.inRanges, Text.blankRanges, List.size_toArray, List.length_cons,
    List.length_nil, zero_add, Nat.reduceAdd, List.any_toArray', List.any_cons, List.any_nil,
    Bool.or_false, Bool.or_eq_false_iff, Bool.and_eq_false_imp, decide_eq_true_eq,
    decide_eq_false_iff_not, not_le]
  omega

theorem isBlank_of_isAlphanum (alphanumeric : c.isAlphanum = true) : Text.isBlank c = false := by
  simp only [Char.isAlphanum, Char.isAlpha, Char.isUpper, Char.isLower, Char.isDigit,
    Bool.or_eq_true, Bool.and_eq_true, decide_eq_true_eq, ge_iff_le,
    UInt32.le_iff_toNat_le] at alphanumeric
  change ((65 ≤ c.toNat ∧ c.toNat ≤ 90 ∨ 97 ≤ c.toNat ∧ c.toNat ≤ 122) ∨
    48 ≤ c.toNat ∧ c.toNat ≤ 57) at alphanumeric
  exact isBlank_of_visible (by omega) (by omega)

theorem endsOperand_of_last (last : entry.getLast? = some c) (alphanumeric : c.isAlphanum = true) :
    endsOperand entry = true := by
  obtain ⟨before, rfl⟩ := List.getLast?_eq_some_iff.mp last
  simp [endsOperand, isBlank_of_isAlphanum alphanumeric, alphanumeric]

/-- An inserted text stands behind the entry, up to spaces, and an operator has a space behind
it. No letter or digit stands directly before a parenthesis. -/
theorem exists_insertion (kind : Kind) (text entry : List Char) :
    ∃ front, stripSpaces front = stripSpaces entry ∧
      (kind = .opening → ∀ c ∈ front.getLast?, c.isAlphanum = false) ∧
      (insertChars kind text entry = front ++ text ∨
        insertChars kind text entry = front ++ text ++ [' ']) := by
  have parted : stripSpaces (stripSpaces entry ++ [' ']) = stripSpaces entry := by
    rw [stripSpaces_concat_space, stripSpaces_stripSpaces]
  cases kind with
  | digit => exact ⟨entry, rfl, nofun, .inl rfl⟩
  | word =>
      simp only [insertChars]
      split
      · exact ⟨entry ++ [' '], stripSpaces_concat_space entry, nofun, .inl (by simp)⟩
      · exact ⟨entry, rfl, nofun, .inl rfl⟩
  | function =>
      simp only [insertChars]
      split
      · exact ⟨_, parted, nofun, .inl (by simp)⟩
      · exact ⟨entry, rfl, nofun, .inl rfl⟩
  | opening =>
      simp only [insertChars]
      split
      · refine ⟨_, parted, fun _ c last => ?_, .inl (by simp)⟩
        obtain rfl : ' ' = c := by simpa using last
        rfl
      · rename_i other
        refine ⟨entry, rfl, fun _ c last => ?_, .inl rfl⟩
        exact Bool.eq_false_iff.mpr fun letter => other (endsOperand_of_last last letter)
  | operator =>
      simp only [insertChars]
      split
      · rename_i empty
        have nothing : stripSpaces entry = [] := List.isEmpty_iff.mp empty
        exact ⟨[], nothing.symm, nofun, .inr rfl⟩
      · exact ⟨_, parted, nofun, .inr rfl⟩
  | closing => exact ⟨_, stripSpaces_stripSpaces entry, nofun, .inl rfl⟩

/-- The entry after these keys. -/
def typeKeys (keys : List Key) (entry : List Char) : List Char :=
  keys.foldl (fun entry key => insertChars key.kind key.text.toList entry) entry

theorem typeKeys_concat (keys : List Key) (key : Key) (entry : List Char) :
    typeKeys (keys ++ [key]) entry =
      insertChars key.kind key.text.toList (typeKeys keys entry) := by
  simp [typeKeys]

end Entry

namespace Key

open Entry

theorem text_ne_nil (key : Key) : key.text.toList ≠ [] := by
  cases key <;> simp [text]

theorem mem_text (key : Key) :
    ∀ c ∈ key.text.toList, c = 'π' ∨ 33 ≤ c.toNat ∧ c.toNat ≤ 126 := by
  cases key with
  | digit value =>
      have digits : ∀ value : Fin 10, 33 ≤ (Nat.digitChar value).toNat ∧
          (Nat.digitChar value).toNat ≤ 126 := by decide
      intro c member
      obtain rfl : c = Nat.digitChar value := by simpa [text] using member
      exact .inr (digits value)
  | _ => simp [text]

theorem visible_text (key : Key) : ∀ c ∈ key.text.toList, c ≠ ' ' := by
  rintro c member rfl
  rcases key.mem_text ' ' member with pi | ⟨low, _⟩
  · contradiction
  · exact absurd low (by decide)

/-- The text of a key is one symbol, unless it completes the name of a function. -/
theorem dropSymbol_text {front : List Char} (key : Key)
    (apart : key.kind = .opening → ∀ c ∈ front.getLast?, c.isAlphanum = false) :
    dropSymbol (front ++ key.text.toList) = front := by
  cases key with
  | digit value =>
      have single : ∀ value : Fin 10, Nat.digitChar value ∉ ['(', 'i', 'π'] := by decide
      simpa [text] using dropSymbol_concat (single value) front
  | opening => exact dropSymbol_opening (apart rfl)
  | exp | ln | pi => simp [text, dropSymbol, wholeSymbols, List.isSuffixOf, List.isPrefixOf]
  | _ => exact dropSymbol_concat (by decide) front

theorem deleteChars_insertChars (key : Key) (entry : List Char) :
    deleteChars (insertChars key.kind key.text.toList entry) = stripSpaces entry := by
  obtain ⟨front, same, apart, inserted⟩ := exists_insertion key.kind key.text.toList entry
  have kept := stripSpaces_append key.text_ne_nil key.visible_text front
  have whole : stripSpaces (insertChars key.kind key.text.toList entry) =
      front ++ key.text.toList := by
    rcases inserted with inserted | inserted
    · rw [inserted, kept]
    · rw [inserted, stripSpaces_concat_space, kept]
  rw [deleteChars, whole, key.dropSymbol_text apart, same]

end Key

namespace Entry

theorem stripSpaces_iterate_deleteChars (count : Nat) (entry : List Char) :
    stripSpaces (deleteChars^[count] (stripSpaces entry)) =
      stripSpaces (deleteChars^[count] entry) := by
  cases count with
  | zero => exact stripSpaces_stripSpaces entry
  | succ count =>
      rw [Function.iterate_succ_apply, Function.iterate_succ_apply, deleteChars_stripSpaces]

/-- As many deletions as keys take the keys back, from the last one on. -/
theorem stripSpaces_delete_typeKeys (keys : List Key) (entry : List Char) :
    stripSpaces (deleteChars^[keys.length] (typeKeys keys entry)) = stripSpaces entry := by
  induction keys using List.reverseRecOn with
  | nil => rfl
  | append_singleton keys key ih =>
      rw [List.length_append, List.length_singleton, Function.iterate_succ_apply,
        typeKeys_concat, key.deleteChars_insertChars, stripSpaces_iterate_deleteChars, ih]

theorem delete_typeKeys (key : Key) (keys : List Key) (entry : List Char) :
    deleteChars^[(key :: keys).length] (typeKeys (key :: keys) entry) = stripSpaces entry := by
  have stripped := stripSpaces_delete_typeKeys (key :: keys) entry
  rw [List.length_cons, Function.iterate_succ_apply'] at stripped ⊢
  rwa [stripSpaces_deleteChars] at stripped

end Entry

namespace Calculator

open Entry

theorem entry_performAll_keys (calculator : Calculator) (keys : List Key) :
    (calculator.performAll (keys.map fun key => .press (.insert key))).entry =
      String.ofList (typeKeys keys calculator.entry.toList) := by
  induction keys generalizing calculator with
  | nil => exact String.ofList_toList.symm
  | cons key keys ih =>
      have inserted : (calculator.perform (.press (.insert key))).entry =
          Entry.insert key.kind key.text calculator.entry := rfl
      have rest := ih (calculator.perform (.press (.insert key)))
      rwa [inserted, Entry.insert, String.toList_ofList] at rest

theorem entry_performAll_deletes (calculator : Calculator) (count : Nat) :
    (calculator.performAll (List.replicate count (.press .delete))).entry =
      String.ofList (deleteChars^[count] calculator.entry.toList) := by
  induction count generalizing calculator with
  | zero => exact String.ofList_toList.symm
  | succ count ih =>
      have deleted : (calculator.perform (.press .delete)).entry =
          Entry.delete calculator.entry := rfl
      have rest := ih (calculator.perform (.press .delete))
      rwa [deleted, Entry.delete, String.toList_ofList] at rest

/-- As many presses of the delete button as of keys, at least one, leave the entry that was
there before, without the spaces at its end. -/
theorem performAll_keys_deletes (calculator : Calculator) (key : Key) (keys : List Key) :
    (calculator.performAll
      ((key :: keys).map (fun key => .press (.insert key)) ++
        List.replicate (key :: keys).length (.press .delete))).entry =
      String.ofList (calculator.entry.toList.rdropWhile (· == ' ')) := by
  rw [performAll, List.foldl_append]
  change (performAll (performAll calculator _) _).entry = _
  rw [entry_performAll_deletes, entry_performAll_keys, String.toList_ofList, delete_typeKeys]
  rfl

end Calculator

end ComplexCalculator
