import ComplexCalculator.Proofs.Decimal.Significant
import ComplexCalculator.Proofs.Decimal.Stable
import ComplexCalculator.Proofs.Display.Parts

/-!
Reading what the display writes.

A form writes both parts with one writer of magnitudes. `Rereads` says which magnitude the text
of a magnitude is read back as, and `ofText_byParts` that the whole text is then read back as
the number with these magnitudes and the signs that were written. The forms with decimals give
back the rounded number, and the default form writes it with the same text again. Seventeen
significant digits give back the number itself.
-/

namespace ComplexCalculator.Display

open Binary64 Decimal
open Numeral (pow_pos_ten)

/-- The double nearest to `x` rounded to `places` decimals, under the sign of `x`. -/
def rounded (places : Nat) (x : Float) : Float :=
  ofWord (isNegative x) (nearestWord (fixedDigits (word x) places) (10 ^ places))

/-- The number, with the sign of `x`, is nearest to the decimal with `places` decimals that is
nearest to `x`. Of two that are as near it is both times the even one. -/
structure RoundsTo (places : Nat) (x number : Float) : Prop where
  sign : isNegative number = isNegative x
  nearest : ∃ digits,
    Nearest (fun index => index * unitsPerOne) (units (word x) * 10 ^ places) digits ∧
      Nearest (fun word => 10 ^ places * units word) (digits * unitsPerOne) (word number)

/-- The text of a magnitude is a literal for this word, which may be infinite. Only zero is
omitted. -/
inductive Writes (nearest : Nat) : Option String → Prop where
  | omitted (zero : nearest = 0) : Writes nearest none
  | literal (literal : Literal) (same : literal.word = nearest) :
      Writes nearest (some (String.ofList literal.text))

/-- The magnitude that a text stands for. Only zero is omitted. -/
inductive Rereads (nearest : Nat) : Option String → Prop where
  | omitted (zero : nearest = 0) : Rereads nearest none
  | literal (literal : Literal) (same : literal.word = nearest) (finite : nearest < infinityWord) :
      Rereads nearest (some (String.ofList literal.text))

theorem Writes.rereads {nearest : Nat} {text : Option String} (writes : Writes nearest text)
    (finite : nearest < infinityWord) : Rereads nearest text := by
  cases writes with
  | omitted zero => exact .omitted zero
  | literal literal same => exact .literal literal same finite

def written (part : Nat → Option String) (x : Float) : Option (Bool × String) :=
  (part (word x)).map fun text => (isNegative x, text)

def withSign : Bool × String → String
  | (negative, text) => if negative then "-" ++ text else text

section Forms

variable {part : Nat → Option String} {x : Float} {z : Complex} {nearest reNearest imNearest : Nat}

theorem word_lt_infinityWord (finite : Binary64.isFinite x = true) : word x < infinityWord :=
  of_decide_eq_true finite

theorem parts_finite (finite : z.isFinite = true) :
    Binary64.isFinite z.re = true ∧ Binary64.isFinite z.im = true :=
  Bool.and_eq_true_iff.mp finite

theorem signed_finite (finite : Binary64.isFinite x = true) (text : String) :
    Decimal.signed x text = withSign (isNegative x, text) := by
  have bound : word x ≤ infinityWord := Nat.le_of_lt (word_lt_infinityWord finite)
  simp [Decimal.signed, withSign, bound]

theorem byParts_finite (finite : z.isFinite = true) :
    byParts part z = assemble ((written part z.re).map withSign) (written part z.im) := by
  obtain ⟨reFinite, -⟩ := parts_finite finite
  have signs : Decimal.signed z.re = fun text => withSign (isNegative z.re, text) :=
    funext (signed_finite reFinite)
  rw [byParts, signs, written, written, Option.map_map]
  rfl

theorem Rereads.exists_part (rereads : Rereads nearest (part (word x))) :
    ∃ made : Option Part,
      written part x = (made.map Part.toSignedLiteral).map SignedLiteral.signAndText ∧
      (made.map Part.value).getD 0 = unsignedZero (isNegative x) nearest := by
  unfold written
  generalize part (word x) = text at rereads ⊢
  cases rereads with
  | omitted zero =>
      subst zero
      exact ⟨none, rfl, (unsignedZero_zero _).symm⟩
  | literal literal same finite =>
      subst same
      exact ⟨some ⟨⟨isNegative x, literal⟩, finite⟩, rfl, rfl⟩

theorem byParts_assembled {re im : Option SignedLiteral} (finite : z.isFinite = true)
    (reWritten : written part z.re = re.map SignedLiteral.signAndText)
    (imWritten : written part z.im = im.map SignedLiteral.signAndText) :
    byParts part z = assembled re im := by
  rw [byParts_finite finite, reWritten, imWritten, assembled, Option.map_map]
  rfl

/-- No elementary function has a part in reading these texts. -/
theorem ofText_byParts_elementary (f : Elementary) (finite : z.isFinite = true)
    (re : Rereads reNearest (part (word z.re))) (im : Rereads imNearest (part (word z.im))) :
    f.ofText (byParts part z) =
      .ok ⟨unsignedZero (isNegative z.re) reNearest, unsignedZero (isNegative z.im) imNearest⟩ := by
  obtain ⟨rePart, reWritten, reValue⟩ := re.exists_part
  obtain ⟨imPart, imWritten, imValue⟩ := im.exists_part
  rw [byParts_assembled finite reWritten imWritten, ofText_assembled, number, reValue, imValue]

theorem ofText_byParts (finite : z.isFinite = true) (re : Rereads reNearest (part (word z.re)))
    (im : Rereads imNearest (part (word z.im))) :
    Complex.ofText (byParts part z) =
      .ok ⟨unsignedZero (isNegative z.re) reNearest, unsignedZero (isNegative z.im) imNearest⟩ := by
  rw [← Elementary.ofText_native]
  exact ofText_byParts_elementary .native finite re im

end Forms

section Writers

variable {word places : Nat}

theorem fixedDigits_zero : fixedDigits 0 places = 0 := by
  simp [fixedDigits, units_zero, roundDiv]

theorem fixedMagnitude_literal (finite : word < infinityWord) :
    fixedMagnitude word places =
      String.ofList (placedLiteral (fixedDigits word places) places).text := by
  rw [fixedMagnitude, if_pos finite, text_placedLiteral]

theorem rereads_fixed (places : Nat) (finite : word < infinityWord) :
    Rereads (nearestWord (fixedDigits word places) (10 ^ places))
      (unlessZero (fun word => fixedMagnitude word places) word) := by
  unfold unlessZero
  by_cases zero : word = 0
  · rw [if_pos zero, zero, fixedDigits_zero, nearestWord_zero (pow_pos_ten places)]
    exact .omitted rfl
  · simp only [if_neg zero, fixedMagnitude_literal finite]
    exact .literal _ (word_placedLiteral _ _) (nearestWord_fixedDigits_finite finite)

theorem digits_of_text_zero {literal : Literal} (text : String.ofList literal.text = "0") :
    literal.digits = 0 := by
  have chars : literal.text = ['0'] := String.ofList_injective text
  have numeral := literal.read?_text
  rw [chars] at numeral
  have zero : Numeral.read? ['0'] = some (.finite false 0 0) := by decide
  rw [zero, Option.some.injEq, Numeral.finite.injEq] at numeral
  exact numeral.2.1.symm

theorem prune_fixedMagnitude (finite : word < infinityWord) :
    Decimal.prune (fixedMagnitude word 12) =
      String.ofList (placedLiteral (fixedDigits word 12) 12).prune.text := by
  have nonempty : (placedLiteral (fixedDigits word 12) 12).decimals ≠ [] := by
    apply List.ne_nil_of_length_pos
    rw [placedLiteral, length_digitsOfWidth]
    decide
  rw [fixedMagnitude_literal finite, Literal.text_prune rfl nonempty]

theorem rereads_pretty (finite : word < infinityWord) :
    Rereads (nearestWord (fixedDigits word 12) (10 ^ 12)) (prettyPart word) := by
  unfold prettyPart
  dsimp only
  rw [prune_fixedMagnitude finite]
  split
  · rename_i zero
    have kept := Literal.digits_prune (placedLiteral (fixedDigits word 12) 12)
    rw [digits_of_text_zero zero, digits_placedLiteral, Nat.zero_mul] at kept
    rw [kept, nearestWord_zero (pow_pos_ten 12)]
    exact .omitted rfl
  · have same : (placedLiteral (fixedDigits word 12) 12).prune.word =
        (placedLiteral (fixedDigits word 12) 12).word := Literal.word_prune rfl
    rw [word_placedLiteral] at same
    exact .literal _ same (nearestWord_fixedDigits_finite finite)

theorem writes_significant {count : Nat} (finite : word < infinityWord) (positive : 0 < count) :
    Writes (significantWord word count) (unlessZero (fun word => significant word count) word) := by
  unfold unlessZero
  by_cases zero : word = 0
  · rw [if_pos zero, zero, significantWord_zero]
    exact .omitted rfl
  · simp only [if_neg zero, significant_eq positive finite]
    exact .literal _ (word_literal_ofWord positive)

theorem rereads_precision (finite : word < infinityWord) :
    Rereads word (unlessZero (fun word => significant word 17) word) := by
  have writes := writes_significant finite (by decide : 0 < 17)
  rw [significantWord_seventeen finite] at writes
  exact writes.rereads finite

theorem prettyPart_congr {other : Nat} (finite : word < infinityWord)
    (otherFinite : other < infinityWord) (same : fixedDigits other 12 = fixedDigits word 12) :
    prettyPart other = prettyPart word := by
  unfold prettyPart
  dsimp only
  rw [prune_fixedMagnitude finite, prune_fixedMagnitude otherFinite, same]

end Writers

section Results

variable {places : Nat} {x : Float} {z : Complex}

theorem nearest_finite (finite : Binary64.isFinite x = true) :
    nearestWord (fixedDigits (word x) places) (10 ^ places) < infinityWord :=
  nearestWord_fixedDigits_finite (word_lt_infinityWord finite)

/-- The double that a part with decimals reads as: the rounded number, where zero has no sign. -/
def reread (places : Nat) (x : Float) : Float :=
  unsignedZero (isNegative x) (nearestWord (fixedDigits (word x) places) (10 ^ places))

theorem reread_finite (finite : Binary64.isFinite x = true) :
    Binary64.isFinite (reread places x) = true :=
  isFinite_unsignedZero (nearest_finite finite)

theorem reread_beq_rounded (finite : Binary64.isFinite x = true) :
    (reread places x == rounded places x) = true :=
  unsignedZero_beq (nearest_finite finite)

theorem rounded_roundsTo (places : Nat) (finite : Binary64.isFinite x = true) :
    RoundsTo places x (rounded places x) where
  sign := isNegative_ofWord (nearest_finite finite)
  nearest := by
    refine ⟨fixedDigits (word x) places, roundDiv_nearest _ unitsPerOne_pos, ?_⟩
    rw [rounded, word_ofWord (nearest_finite finite)]
    exact nearestWord_nearest (pow_pos_ten places) (nearest_finite finite)

theorem ofText_pretty_elementary (f : Elementary) (finite : z.isFinite = true) :
    f.ofText (pretty z) = .ok ⟨reread 12 z.re, reread 12 z.im⟩ := by
  obtain ⟨reFinite, imFinite⟩ := parts_finite finite
  have re := rereads_pretty (word_lt_infinityWord reFinite)
  have im := rereads_pretty (word_lt_infinityWord imFinite)
  exact ofText_byParts_elementary f finite re im

theorem ofText_pretty (finite : z.isFinite = true) :
    Complex.ofText (pretty z) = .ok ⟨reread 12 z.re, reread 12 z.im⟩ := by
  rw [← Elementary.ofText_native]
  exact ofText_pretty_elementary .native finite

theorem ofText_fixed_elementary (f : Elementary) (places : Nat) (finite : z.isFinite = true) :
    f.ofText (fixed places z) = .ok ⟨reread places z.re, reread places z.im⟩ := by
  obtain ⟨reFinite, imFinite⟩ := parts_finite finite
  have re := rereads_fixed places (word_lt_infinityWord reFinite)
  have im := rereads_fixed places (word_lt_infinityWord imFinite)
  exact ofText_byParts_elementary f finite re im

theorem ofText_fixed (places : Nat) (finite : z.isFinite = true) :
    Complex.ofText (fixed places z) = .ok ⟨reread places z.re, reread places z.im⟩ := by
  rw [← Elementary.ofText_native]
  exact ofText_fixed_elementary .native places finite

theorem written_reread (finite : Binary64.isFinite x = true) :
    written prettyPart (reread 12 x) = written prettyPart x := by
  have bound := word_lt_infinityWord finite
  have nearestBound : nearestWord (fixedDigits (word x) 12) (10 ^ 12) < infinityWord :=
    nearest_finite finite
  have same := prettyPart_congr bound nearestBound (fixedDigits_stable bound)
  unfold reread
  generalize nearestWord (fixedDigits (word x) 12) (10 ^ 12) = nearest at *
  by_cases zero : nearest = 0
  · -- the number is written as zero is, so its sign does not show
    have omitted : prettyPart 0 = none := by decide +kernel
    have wordZero : word 0 = 0 := by decide
    rw [zero, omitted] at same
    rw [zero, unsignedZero_zero, written, written, wordZero, omitted, ← same]
    rfl
  · rw [unsignedZero_of_ne zero, written, written, word_ofWord nearestBound,
      isNegative_ofWord nearestBound, same]

theorem pretty_reread (finite : z.isFinite = true) :
    pretty ⟨reread 12 z.re, reread 12 z.im⟩ = pretty z := by
  obtain ⟨reFinite, imFinite⟩ := parts_finite finite
  have rereadFinite : Complex.isFinite ⟨reread 12 z.re, reread 12 z.im⟩ = true :=
    Bool.and_eq_true_iff.mpr ⟨reread_finite reFinite, reread_finite imFinite⟩
  rw [pretty, pretty, byParts_finite finite, byParts_finite rereadFinite,
    written_reread reFinite, written_reread imFinite]

/-- The texts with decimals read as the rounded number, which is the nearest one, and the default
form writes what it reads as with the same text. -/
theorem reread_decimals (z : Complex) (finite : z.isFinite = true) :
    (∃ value, Complex.ofText (pretty z) = .ok value ∧
      (value.re == rounded 12 z.re) = true ∧ (value.im == rounded 12 z.im) = true ∧
      pretty value = pretty z) ∧
    ∀ places, (∃ value, Complex.ofText (fixed places z) = .ok value ∧
      (value.re == rounded places z.re) = true ∧ (value.im == rounded places z.im) = true) ∧
      RoundsTo places z.re (rounded places z.re) ∧ RoundsTo places z.im (rounded places z.im) := by
  obtain ⟨reFinite, imFinite⟩ := parts_finite finite
  constructor
  · exact ⟨_, ofText_pretty finite, reread_beq_rounded reFinite, reread_beq_rounded imFinite,
      pretty_reread finite⟩
  · intro places
    refine ⟨⟨_, ofText_fixed places finite, ?_⟩, ?_⟩
    · exact ⟨reread_beq_rounded reFinite, reread_beq_rounded imFinite⟩
    · exact ⟨rounded_roundsTo places reFinite, rounded_roundsTo places imFinite⟩

/-- A third, and minus two and a half. -/
theorem reread_decimals_third :
    let z : Complex := ⟨ofWord false 4599676419421066581, ofWord true 4612811918334230528⟩
    z.isFinite = true ∧
      (∃ value, Complex.ofText "0.333333333333-2.5j" = .ok value ∧
        (value.re == rounded 12 z.re) = true ∧ (value.im == rounded 12 z.im) = true ∧
        pretty value = "0.333333333333-2.5j") ∧
      (∃ value, Complex.ofText "0.33-2.50j" = .ok value ∧
        (value.re == rounded 2 z.re) = true ∧ (value.im == rounded 2 z.im) = true) ∧
      rounded 2 z.re = 0.33 ∧ RoundsTo 2 z.re 0.33 := by
  intro z
  have finite : z.isFinite = true := by decide
  have prettyText : pretty z = "0.333333333333-2.5j" := by decide +kernel
  have fixedText : fixed 2 z = "0.33-2.50j" := by decide +kernel
  have third : rounded 2 z.re = 0.33 := by decide +kernel
  obtain ⟨shown, written⟩ := reread_decimals z finite
  obtain ⟨read, nearest, -⟩ := written 2
  rw [prettyText] at shown
  rw [fixedText] at read
  rw [third] at nearest
  exact ⟨finite, shown, read, third, nearest⟩

theorem unsignedZero_word_beq (finite : Binary64.isFinite x = true) :
    (unsignedZero (isNegative x) (word x) == x) = true := by
  have same : (unsignedZero (isNegative x) (word x) == ofWord (isNegative x) (word x)) = true :=
    unsignedZero_beq (word_lt_infinityWord finite)
  rwa [ofWord_word finite] at same

/-- Seventeen significant digits lose nothing. -/
theorem reread_precision (z : Complex) (finite : z.isFinite = true) :
    ∃ value, Complex.ofText (precision 17 z) = .ok value ∧
      (value.re == z.re) = true ∧ (value.im == z.im) = true := by
  obtain ⟨reFinite, imFinite⟩ := parts_finite finite
  have re := rereads_precision (word_lt_infinityWord reFinite)
  have im := rereads_precision (word_lt_infinityWord imFinite)
  exact ⟨_, ofText_byParts finite re im, unsignedZero_word_beq reFinite,
    unsignedZero_word_beq imFinite⟩

theorem reread_precision_least :
    Complex.isFinite ⟨ofWord true 1, ofWord false 4599676419421066581⟩ = true ∧
      ∃ value, Complex.ofText "-4.9406564584124654e-324+0.33333333333333331j" = .ok value ∧
        (value.re == ofWord true 1) = true ∧
        (value.im == ofWord false 4599676419421066581) = true := by
  have finite : Complex.isFinite ⟨ofWord true 1, ofWord false 4599676419421066581⟩ = true := by
    decide
  have text : precision 17 ⟨ofWord true 1, ofWord false 4599676419421066581⟩ =
      "-4.9406564584124654e-324+0.33333333333333331j" := by decide +kernel
  obtain ⟨value, read, re, im⟩ := reread_precision _ finite
  rw [text] at read
  exact ⟨finite, value, read, re, im⟩

end Results

end ComplexCalculator.Display
