import Mathlib
import ComplexCalculator.Binary64

namespace ComplexCalculator

/-- Of the values of `grid` the one at `index` is nearest to `exact`, and `index` is even when
another one is as near. -/
structure Nearest (grid : Nat → Nat) (exact index : Nat) : Prop where
  le (other : Nat) : (grid index).dist exact ≤ (grid other).dist exact
  even (other : Nat) (different : other ≠ index)
    (tie : (grid other).dist exact = (grid index).dist exact) : index % 2 = 0

namespace Nearest

variable {grid : Nat → Nat} {exact index : Nat}

/-- Between two neighbours on a grid their midpoint decides. -/
theorem of_midpoints (mono : StrictMono grid)
    (below : ∀ previous, index = previous + 1 → grid previous + grid index ≤ 2 * exact)
    (above : 2 * exact ≤ grid index + grid (index + 1))
    (belowEven : ∀ previous, index = previous + 1 → grid previous + grid index = 2 * exact →
      index % 2 = 0)
    (aboveEven : 2 * exact = grid index + grid (index + 1) → index % 2 = 0) :
    Nearest grid exact index := by
  have side (other : Nat) (different : other ≠ index) :
      (∃ previous, index = previous + 1 ∧ grid other ≤ grid previous ∧
        grid previous < grid index) ∨
        grid index < grid (index + 1) ∧ grid (index + 1) ≤ grid other := by
    rcases Nat.lt_or_gt_of_ne different with less | greater
    · obtain ⟨previous, rfl⟩ : ∃ previous, index = previous + 1 := ⟨index - 1, by omega⟩
      exact .inl ⟨previous, rfl, mono.monotone (Nat.le_of_lt_succ less), mono (Nat.lt_succ_self _)⟩
    · exact .inr ⟨mono (Nat.lt_succ_self _), mono.monotone greater⟩
  constructor
  · intro other
    by_cases same : other = index
    · rw [same]
    · unfold Nat.dist
      rcases side other same with ⟨previous, next, order, step⟩ | ⟨step, order⟩
      · have midpoint := below previous next
        omega
      · omega
  · intro other different tie
    unfold Nat.dist at tie
    rcases side other different with ⟨previous, next, order, step⟩ | ⟨step, order⟩
    · have midpoint := below previous next
      exact belowEven previous next (by omega)
    · exact aboveEven (by omega)

end Nearest

open Decimal (roundDiv roundDiv_le le_roundDiv roundDiv_even)

theorem Decimal.roundDiv_nearest (num : Nat) {den : Nat} (positive : 0 < den) :
    Nearest (fun index => index * den) num (roundDiv num den) := by
  have up := roundDiv_le num positive
  have down := le_roundDiv num positive
  have even := @roundDiv_even num den positive
  generalize roundDiv num den = index at *
  refine .of_midpoints (fun _ _ less => Nat.mul_lt_mul_of_pos_right less positive) ?_ ?_ ?_ ?_
  · rintro previous rfl
    rw [Nat.add_mul] at up ⊢
    omega
  · rw [Nat.add_mul]
    omega
  · rintro previous rfl tie
    rw [Nat.add_mul] at even tie
    exact even (.inl (by omega))
  · intro tie
    rw [Nat.add_mul] at tie
    exact even (.inr (by omega))

namespace Binary64

variable {word other num den : Nat}

theorem units_def (word : Nat) :
    units word = if word < 2 ^ 52 then word
      else (word % 2 ^ 52 + 2 ^ 52) * 2 ^ (word / 2 ^ 52 - 1) := rfl

theorem unitsPerOne_pos : 0 < unitsPerOne := by decide +kernel

/-- The units between the number with this word and the next one. -/
def step (word : Nat) : Nat := 2 ^ (word / 2 ^ 52 - 1)

theorem step_pos (word : Nat) : 0 < step word := Nat.two_pow_pos _

theorem units_subnormal (subnormal : word < 2 ^ 52) : units word = word := if_pos subnormal

theorem units_normal {binade field : Nat} (small : field < 2 ^ 52) :
    units ((binade + 1) * 2 ^ 52 + field) = (field + 2 ^ 52) * 2 ^ binade := by
  have quotient : ((binade + 1) * 2 ^ 52 + field) / 2 ^ 52 = binade + 1 := by omega
  have remainder : ((binade + 1) * 2 ^ 52 + field) % 2 ^ 52 = field := by omega
  rw [units_def, if_neg (by omega), quotient, remainder, Nat.add_sub_cancel]

theorem word_cases (word : Nat) :
    word < 2 ^ 52 ∨ ∃ binade field, field < 2 ^ 52 ∧ word = (binade + 1) * 2 ^ 52 + field := by
  by_cases subnormal : word < 2 ^ 52
  · exact .inl subnormal
  · exact .inr ⟨word / 2 ^ 52 - 1, word % 2 ^ 52, Nat.mod_lt _ (by decide), by omega⟩

theorem step_subnormal (subnormal : word < 2 ^ 52) : step word = 1 := by
  rw [step, Nat.div_eq_of_lt subnormal]
  rfl

theorem step_normal {binade field : Nat} (small : field < 2 ^ 52) :
    step ((binade + 1) * 2 ^ 52 + field) = 2 ^ binade := by
  have quotient : ((binade + 1) * 2 ^ 52 + field) / 2 ^ 52 = binade + 1 := by omega
  rw [step, quotient, Nat.add_sub_cancel]

theorem units_succ (word : Nat) : units (word + 1) = units word + step word := by
  rcases word_cases word with subnormal | ⟨binade, field, small, rfl⟩
  · rw [units_subnormal subnormal, step_subnormal subnormal]
    by_cases last : word + 1 < 2 ^ 52
    · exact units_subnormal last
    · obtain rfl : word = 2 ^ 52 - 1 := by omega
      rfl
  · rw [units_normal small, step_normal small]
    by_cases last : field + 1 < 2 ^ 52
    · rw [Nat.add_assoc, units_normal last]
      ring
    · obtain rfl : field = 2 ^ 52 - 1 := by omega
      have carry : (binade + 1) * 2 ^ 52 + (2 ^ 52 - 1) + 1 = (binade + 1 + 1) * 2 ^ 52 + 0 := by
        omega
      rw [carry, units_normal (by decide), Nat.pow_succ]
      ring

theorem units_strictMono : StrictMono units :=
  strictMono_nat_of_lt_succ fun word => by
    rw [units_succ]
    exact Nat.lt_add_of_pos_right (step_pos word)

theorem units_le_units (le : word ≤ other) : units word ≤ units other :=
  units_strictMono.monotone le

theorem units_zero : units 0 = 0 := rfl

theorem units_pos (nonzero : word ≠ 0) : 0 < units word := by
  have less := units_strictMono (Nat.pos_of_ne_zero nonzero)
  rwa [units_zero] at less

/-- A number is less than `2 ^ 53` steps, so the steps are finer than 53 binary digits. -/
theorem units_succ_le (word : Nat) : units (word + 1) ≤ 2 ^ 53 * step word := by
  rw [units_succ]
  rcases word_cases word with subnormal | ⟨binade, field, small, rfl⟩
  · rw [units_subnormal subnormal, step_subnormal subnormal]
    omega
  · rw [units_normal small, step_normal small]
    calc (field + 2 ^ 52) * 2 ^ binade + 2 ^ binade = (field + 2 ^ 52 + 1) * 2 ^ binade := by ring
      _ ≤ 2 ^ 53 * 2 ^ binade := Nat.mul_le_mul_right _ (by omega)

/-- The word whose mantissa is `mantissa` in the binade with step `2 ^ shift`. The mantissa may
be one too large: then it begins the next binade. -/
theorem units_mantissa {shift mantissa : Nat} (large : mantissa ≤ 2 ^ 53)
    (normal : shift = 0 ∨ 2 ^ 52 ≤ mantissa) :
    units (shift * 2 ^ 52 + mantissa) = mantissa * 2 ^ shift := by
  by_cases subnormal : mantissa < 2 ^ 52
  · obtain rfl : shift = 0 := by omega
    rw [Nat.zero_mul, Nat.zero_add, units_subnormal subnormal, Nat.pow_zero, Nat.mul_one]
  · by_cases last : mantissa = 2 ^ 53
    · subst last
      have carry : shift * 2 ^ 52 + 2 ^ 53 = (shift + 1 + 1) * 2 ^ 52 + 0 := by omega
      rw [carry, units_normal (by decide), Nat.pow_succ]
      ring
    · have split : shift * 2 ^ 52 + mantissa = (shift + 1) * 2 ^ 52 + (mantissa - 2 ^ 52) := by
        omega
      rw [split, units_normal (by omega), Nat.sub_add_cancel (by omega)]

theorem pow_shift_le_step {shift mantissa : Nat} (normal : shift = 0 ∨ 2 ^ 52 ≤ mantissa) :
    2 ^ shift ≤ step (shift * 2 ^ 52 + mantissa) := by
  apply Nat.pow_le_pow_right (by decide)
  rcases normal with rfl | large
  · exact Nat.zero_le _
  · omega

theorem step_mantissa {shift mantissa : Nat} (small : mantissa < 2 ^ 53)
    (normal : shift = 0 ∨ 2 ^ 52 ≤ mantissa) :
    step (shift * 2 ^ 52 + mantissa) = 2 ^ shift := by
  by_cases subnormal : mantissa < 2 ^ 52
  · obtain rfl : shift = 0 := by omega
    rw [Nat.zero_mul, Nat.zero_add, step_subnormal subnormal, Nat.pow_zero]
  · have split : shift * 2 ^ 52 + mantissa = (shift + 1) * 2 ^ 52 + (mantissa - 2 ^ 52) := by
      omega
    rw [split, step_normal (by omega)]

/-- How `nearestWord` rounds: to a mantissa in a binade in which the quotient lies. The step of
the binade, on the scale of `exact`, is `scale`. -/
structure Rounds (exact scale shift mantissa : Nat) : Prop where
  normal : shift = 0 ∨ 2 ^ 52 * scale ≤ exact
  below : exact < 2 ^ 53 * scale
  up : 2 * (mantissa * scale) ≤ 2 * exact + scale
  down : 2 * exact ≤ 2 * (mantissa * scale) + scale
  even (half : 2 * exact + scale = 2 * (mantissa * scale) ∨
    2 * exact = 2 * (mantissa * scale) + scale) : mantissa % 2 = 0

namespace Rounds

variable {exact scale shift mantissa : Nat}

theorem large (rounds : Rounds exact scale shift mantissa) : mantissa ≤ 2 ^ 53 := by
  by_contra larger
  have more : (2 ^ 53 + 1) * scale ≤ mantissa * scale := Nat.mul_le_mul_right scale (by omega)
  have below := rounds.below
  have up := rounds.up
  omega

theorem small (rounds : Rounds exact scale shift mantissa) : shift = 0 ∨ 2 ^ 52 ≤ mantissa := by
  rcases rounds.normal with zero | inside
  · exact .inl zero
  · right
    by_contra smaller
    have less : (mantissa + 1) * scale ≤ 2 ^ 52 * scale := Nat.mul_le_mul_right scale (by omega)
    have below := rounds.below
    have down := rounds.down
    rw [Nat.add_mul] at less
    omega

theorem units_eq (rounds : Rounds exact scale shift mantissa) :
    units (shift * 2 ^ 52 + mantissa) = mantissa * 2 ^ shift :=
  units_mantissa rounds.large rounds.small

end Rounds

theorem nearestWord_rounds (num : Nat) (positive : 0 < den) :
    ∃ shift mantissa, nearestWord num den = min (shift * 2 ^ 52 + mantissa) infinityWord ∧
      Rounds (num * unitsPerOne) (den * 2 ^ shift) shift mantissa := by
  refine ⟨(num * unitsPerOne / den).log2 - 52, _, rfl, ?_⟩
  generalize num * unitsPerOne = exact
  have quotient : den * (exact / den) ≤ exact := Nat.mul_div_le exact den
  have remainder : exact < den * (exact / den + 1) := Nat.lt_mul_div_succ exact positive
  generalize exact / den = floor at quotient remainder ⊢
  have scale : 0 < den * 2 ^ (floor.log2 - 52) := Nat.mul_pos positive (Nat.two_pow_pos _)
  refine ⟨?_, ?_, roundDiv_le _ scale, le_roundDiv _ scale, roundDiv_even scale⟩
  · by_cases small : floor.log2 ≤ 52
    · exact .inl (Nat.sub_eq_zero_of_le small)
    · have nonzero : floor ≠ 0 := by
        intro equal
        subst equal
        exact small (by decide)
      have lower : 2 ^ 52 * 2 ^ (floor.log2 - 52) ≤ floor := by
        rw [← Nat.pow_add, Nat.add_sub_cancel' (by omega)]
        exact Nat.log2_self_le nonzero
      right
      calc 2 ^ 52 * (den * 2 ^ (floor.log2 - 52))
          = den * (2 ^ 52 * 2 ^ (floor.log2 - 52)) := by ring
        _ ≤ den * floor := Nat.mul_le_mul_left den lower
        _ ≤ exact := quotient
  · have upper : floor + 1 ≤ 2 ^ 53 * 2 ^ (floor.log2 - 52) := by
      rw [← Nat.pow_add]
      exact Nat.le_trans Nat.lt_log2_self (Nat.pow_le_pow_right (by decide) (by omega))
    calc exact < den * (floor + 1) := remainder
      _ ≤ den * (2 ^ 53 * 2 ^ (floor.log2 - 52)) := Nat.mul_le_mul_left den upper
      _ = 2 ^ 53 * (den * 2 ^ (floor.log2 - 52)) := by ring

theorem nearestWord_le (positive : 0 < den)
    (below : 2 * (num * unitsPerOne) < den * (units word + units (word + 1))) :
    nearestWord num den ≤ word := by
  obtain ⟨shift, mantissa, same, rounds⟩ := nearestWord_rounds num positive
  rw [same]
  refine Nat.le_trans (Nat.min_le_left _ _) ?_
  by_contra above
  have value := rounds.units_eq
  have up := rounds.up
  generalize num * unitsPerOne = exact at *
  -- the number below the rounded one is a step lower, or the quotient has not been rounded up
  have midpoint : den * (units (shift * 2 ^ 52 + mantissa - 1) + units (shift * 2 ^ 52 + mantissa)) ≤
      2 * exact := by
    rw [value]
    by_cases inside : shift = 0 ∨ 2 ^ 52 < mantissa
    · obtain ⟨lower, rfl⟩ : ∃ lower, mantissa = lower + 1 := ⟨mantissa - 1, by omega⟩
      have large := rounds.large
      have previous : shift * 2 ^ 52 + (lower + 1) - 1 = shift * 2 ^ 52 + lower := by omega
      rw [previous, units_mantissa (by omega) (by omega)]
      have sum : den * (lower * 2 ^ shift + (lower + 1) * 2 ^ shift) + den * 2 ^ shift =
          2 * ((lower + 1) * (den * 2 ^ shift)) := by ring
      omega
    · have small := rounds.small
      obtain rfl : mantissa = 2 ^ 52 := by omega
      have normal := rounds.normal.resolve_left (by omega)
      have previous : units (shift * 2 ^ 52 + 2 ^ 52 - 1) ≤ units (shift * 2 ^ 52 + 2 ^ 52) :=
        units_le_units (by omega)
      rw [value] at previous
      calc den * (units (shift * 2 ^ 52 + 2 ^ 52 - 1) + 2 ^ 52 * 2 ^ shift)
          ≤ den * (2 ^ 52 * 2 ^ shift + 2 ^ 52 * 2 ^ shift) :=
            Nat.mul_le_mul_left den (Nat.add_le_add_right previous _)
        _ = 2 * (2 ^ 52 * (den * 2 ^ shift)) := by ring
        _ ≤ 2 * exact := Nat.mul_le_mul_left 2 normal
  have lower : units word ≤ units (shift * 2 ^ 52 + mantissa - 1) := units_le_units (by omega)
  have upper : units (word + 1) ≤ units (shift * 2 ^ 52 + mantissa) := units_le_units (by omega)
  have := Nat.mul_le_mul_left den (Nat.add_le_add lower upper)
  omega

theorem lt_nearestWord (positive : 0 < den) (finite : word < infinityWord)
    (above : den * (units word + units (word + 1)) < 2 * (num * unitsPerOne)) :
    word < nearestWord num den := by
  obtain ⟨shift, mantissa, same, rounds⟩ := nearestWord_rounds num positive
  rw [same]
  refine Nat.lt_min.mpr ⟨?_, finite⟩
  by_contra below
  have value := rounds.units_eq
  have down := rounds.down
  generalize num * unitsPerOne = exact at *
  have midpoint : 2 * exact ≤
      den * (units (shift * 2 ^ 52 + mantissa) + units (shift * 2 ^ 52 + mantissa + 1)) := by
    have next := pow_shift_le_step rounds.small
    calc 2 * exact ≤ 2 * (mantissa * (den * 2 ^ shift)) + den * 2 ^ shift := down
      _ = den * (mantissa * 2 ^ shift + (mantissa * 2 ^ shift + 2 ^ shift)) := by ring
      _ ≤ _ := by
        rw [units_succ, value]
        exact Nat.mul_le_mul_left den (by omega)
  have lower : units (shift * 2 ^ 52 + mantissa) ≤ units word := units_le_units (by omega)
  have upper : units (shift * 2 ^ 52 + mantissa + 1) ≤ units (word + 1) :=
    units_le_units (by omega)
  have := Nat.mul_le_mul_left den (Nat.add_le_add lower upper)
  omega

theorem le_nearestWord (positive : 0 < den) (finite : word ≤ infinityWord)
    (le : den * units word ≤ num * unitsPerOne) : word ≤ nearestWord num den := by
  cases word with
  | zero => exact Nat.zero_le _
  | succ word =>
      refine lt_nearestWord positive finite ?_
      have less : den * units word < den * units (word + 1) :=
        Nat.mul_lt_mul_of_pos_left (units_strictMono (Nat.lt_succ_self word)) positive
      rw [Nat.mul_add]
      omega

theorem nearestWord_le_infinityWord (num den : Nat) : nearestWord num den ≤ infinityWord :=
  Nat.min_le_right _ _

@[simp] theorem nearestWord_zero (positive : 0 < den) : nearestWord 0 den = 0 := by
  apply Nat.le_zero.mp
  apply nearestWord_le positive
  rw [Nat.zero_mul]
  exact Nat.mul_pos positive (by decide)

theorem roundDiv_mul_right (num den : Nat) {factor : Nat} (positive : 0 < factor) :
    roundDiv (num * factor) (den * factor) = roundDiv num den := by
  have less : 2 * (num % den * factor) < den * factor ↔ 2 * (num % den) < den := by
    rw [← Nat.mul_assoc]
    exact Nat.mul_lt_mul_right positive
  have more : den * factor < 2 * (num % den * factor) ↔ den < 2 * (num % den) := by
    rw [← Nat.mul_assoc]
    exact Nat.mul_lt_mul_right positive
  simp only [roundDiv, Nat.mul_div_mul_right _ _ positive, Nat.mul_mod_mul_right, less, more]

theorem nearestWord_mul_right (num den : Nat) {factor : Nat} (positive : 0 < factor) :
    nearestWord (num * factor) (den * factor) = nearestWord num den := by
  have numerator : num * factor * unitsPerOne = num * unitsPerOne * factor := by ring
  have denominator (scale : Nat) : den * factor * scale = den * scale * factor := by ring
  simp only [nearestWord, numerator, denominator, Nat.mul_div_mul_right _ _ positive,
    roundDiv_mul_right _ _ positive]

theorem midpoint_le_of_nearestWord (positive : 0 < den) (found : nearestWord num den = word + 1) :
    den * (units word + units (word + 1)) ≤ 2 * (num * unitsPerOne) := by
  by_contra below
  have le := nearestWord_le positive (Nat.lt_of_not_le below)
  omega

theorem le_midpoint_of_nearestWord (positive : 0 < den) (finite : word < infinityWord)
    (found : nearestWord num den = word) :
    2 * (num * unitsPerOne) ≤ den * (units word + units (word + 1)) := by
  by_contra above
  have less := lt_nearestWord positive finite (Nat.lt_of_not_le above)
  omega

/-- The word is even when its mantissa is, or where a binade begins. -/
theorem even_of_midpoint_below (positive : 0 < den) (finite : nearestWord num den < infinityWord)
    (found : nearestWord num den = word + 1)
    (tie : den * (units word + units (word + 1)) = 2 * (num * unitsPerOne)) :
    nearestWord num den % 2 = 0 := by
  obtain ⟨shift, mantissa, same, rounds⟩ := nearestWord_rounds num positive
  have inner : nearestWord num den = shift * 2 ^ 52 + mantissa := by omega
  have large := rounds.large
  have small := rounds.small
  have value := rounds.units_eq
  rw [← inner, found] at value
  by_cases inside : shift = 0 ∨ 2 ^ 52 < mantissa
  · obtain ⟨lower, rfl⟩ : ∃ lower, mantissa = lower + 1 := ⟨mantissa - 1, by omega⟩
    obtain rfl : word = shift * 2 ^ 52 + lower := by omega
    rw [value, units_mantissa (by omega) (by omega)] at tie
    have half : 2 * (num * unitsPerOne) + den * 2 ^ shift =
        2 * ((lower + 1) * (den * 2 ^ shift)) := by
      rw [← tie]
      ring
    have even := rounds.even (.inl half)
    omega
  · omega

theorem even_of_midpoint_above (positive : 0 < den) (finite : nearestWord num den < infinityWord)
    (tie : 2 * (num * unitsPerOne) =
      den * (units (nearestWord num den) + units (nearestWord num den + 1))) :
    nearestWord num den % 2 = 0 := by
  obtain ⟨shift, mantissa, same, rounds⟩ := nearestWord_rounds num positive
  have inner : nearestWord num den = shift * 2 ^ 52 + mantissa := by omega
  have large := rounds.large
  rw [inner, units_succ, rounds.units_eq] at tie
  by_cases last : mantissa = 2 ^ 53
  · omega
  · rw [step_mantissa (by omega) rounds.small] at tie
    have half : 2 * (num * unitsPerOne) = 2 * (mantissa * (den * 2 ^ shift)) + den * 2 ^ shift := by
      rw [tie]
      ring
    have even := rounds.even (.inr half)
    omega

/-- The nearest word is that of the nearest double, while that is finite. -/
theorem nearestWord_nearest (positive : 0 < den) (finite : nearestWord num den < infinityWord) :
    Nearest (fun word => den * units word) (num * unitsPerOne) (nearestWord num den) := by
  refine .of_midpoints ?_ ?_ ?_ ?_ ?_
  · intro word other less
    exact Nat.mul_lt_mul_of_pos_left (units_strictMono less) positive
  · intro previous found
    rw [found, ← Nat.mul_add]
    exact midpoint_le_of_nearestWord positive found
  · rw [← Nat.mul_add]
    exact le_midpoint_of_nearestWord positive finite rfl
  · intro previous found tie
    rw [found, ← Nat.mul_add] at tie
    exact even_of_midpoint_below positive finite found tie
  · intro tie
    rw [← Nat.mul_add] at tie
    exact even_of_midpoint_above positive finite tie

end Binary64

end ComplexCalculator
