import ComplexCalculator.Proofs.Display.Rereading

namespace ComplexCalculator.Display

open Binary64 Decimal

theorem Writes.exists_signed {nearest : Nat} {part : Nat → Option String} {x : Float}
    (writes : Writes nearest (part (word x))) :
    ∃ made : Option SignedLiteral,
      written part x = made.map SignedLiteral.signAndText ∧
      (nearest = infinityWord → ∃ signed, made = some signed ∧ signed.literal.word = nearest) := by
  unfold written
  generalize part (word x) = text at writes ⊢
  cases writes with
  | omitted zero => exact ⟨none, rfl, fun infinite => absurd (zero.symm.trans infinite) (by decide)⟩
  | literal literal same => exact ⟨some ⟨isNegative x, literal⟩, rfl, fun _ => ⟨_, rfl, same⟩⟩

theorem ofText_byParts_overflow (f : Elementary) {part : Nat → Option String} {z : Complex}
    {reNearest imNearest : Nat} (finite : z.isFinite = true)
    (re : Writes reNearest (part (word z.re))) (im : Writes imNearest (part (word z.im)))
    (reBound : reNearest ≤ infinityWord)
    (overflow : reNearest = infinityWord ∨ imNearest = infinityWord) :
    f.ofText (byParts part z) = .error tooLarge := by
  obtain ⟨imMade, imWritten, imInfinite⟩ := im.exists_signed
  by_cases reFinite : reNearest < infinityWord
  · obtain ⟨signed, rfl, infinite⟩ := imInfinite (overflow.resolve_left (Nat.ne_of_lt reFinite))
    obtain ⟨rePart, reWritten, -⟩ := (re.rereads reFinite).exists_part
    rw [byParts_assembled finite reWritten imWritten]
    exact ofText_assembled_unit (infinite.trans (overflow.resolve_left (Nat.ne_of_lt reFinite))) _
  · have infinite := Nat.le_antisymm reBound (Nat.le_of_not_lt reFinite)
    obtain ⟨reMade, reWritten, reInfinite⟩ := re.exists_signed
    obtain ⟨signed, rfl, same⟩ := reInfinite infinite
    rw [byParts_assembled finite reWritten imWritten]
    exact ofText_assembled_real (same.trans infinite) imMade

theorem significantWord_le (word count : Nat) : significantWord word count ≤ infinityWord := by
  unfold significantWord
  dsimp only
  rw [Numeral.nearestToDecimal_eq]
  exact nearestWord_le_infinityWord _ _

/-- How many digits the form with significant digits writes. -/
def significantDigits (digits : Nat) : Nat := min (max digits 1) maxSignificant

theorem significantDigits_pos (digits : Nat) : 0 < significantDigits digits := by
  unfold significantDigits maxSignificant
  omega

/-- A part rounded to the digits of the setting stays within the finite numbers. -/
def FitsPrecision (digits : Nat) (x : Float) : Prop :=
  significantWord (word x) (significantDigits digits) < infinityWord

instance (digits : Nat) (x : Float) : Decidable (FitsPrecision digits x) :=
  inferInstanceAs (Decidable (_ < _))

/-- The form with significant digits can be read back unless a part is rounded past the greatest
double. -/
theorem ofText_precision_iff (f : Elementary) (digits : Nat) {z : Complex} (finite : z.isFinite = true) :
    (∃ value, f.ofText (precision digits z) = .ok value) ↔
      FitsPrecision digits z.re ∧ FitsPrecision digits z.im := by
  obtain ⟨reFinite, imFinite⟩ := parts_finite finite
  have re := writes_significant (word_lt_infinityWord reFinite) (significantDigits_pos digits)
  have im := writes_significant (word_lt_infinityWord imFinite) (significantDigits_pos digits)
  have reBound := significantWord_le (word z.re) (significantDigits digits)
  have imBound := significantWord_le (word z.im) (significantDigits digits)
  unfold FitsPrecision
  constructor
  · rintro ⟨value, read⟩
    by_contra outside
    have overflow : significantWord (word z.re) (significantDigits digits) = infinityWord ∨
        significantWord (word z.im) (significantDigits digits) = infinityWord := by omega
    have refused : f.ofText (precision digits z) = .error tooLarge :=
      ofText_byParts_overflow f finite re im reBound overflow
    rw [refused] at read
    cases read
  · rintro ⟨reFits, imFits⟩
    exact ⟨_, ofText_byParts_elementary f finite (re.rereads reFits) (im.rereads imFits)⟩

end ComplexCalculator.Display
