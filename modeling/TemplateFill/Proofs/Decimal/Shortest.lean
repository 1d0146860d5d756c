import Mathlib.Algebra.Order.Field.Power
import Mathlib.Algebra.Order.Floor.Semifield
import TemplateFill.Decimal.Shortest
import TemplateFill.Proofs.Decimal.Rounding

/-!
The shortest decimal of a magnitude rounds to it.

On the grid with seventeen digits the two neighbours of a magnitude are closer to each other than
the neighbouring magnitudes are, so one of them rounds to the code. The search over the grids stops
there at the latest, and whatever grid it stops at, the decimal that it answers with rounds to the
code.
-/

namespace TemplateFill

open Binary64

namespace Binary64

/-- The magnitudes beside one are apart from each other by more than it, scaled down. -/
theorem unitsOf_gap {code : Nat} (positive : 0 < code) :
    unitsOf code + binadeSize * unitsOf (code - 1) ≤ binadeSize * unitsOf (code + 1) := by
  obtain ⟨b, r, rfl, normal, bounded⟩ := exists_significand code
  rw [unitsOf_succ normal bounded, unitsOf_eq normal bounded.le]
  by_cases first : b ≠ 0 ∧ r = binadeSize
  · obtain ⟨later, rfl⟩ := first
    obtain ⟨b, rfl⟩ := Nat.exists_eq_succ_of_ne_zero later
    have before : b.succ * binadeSize + binadeSize - 1 =
        b * binadeSize + (2 * binadeSize - 1) := by
      rw [Nat.succ_mul]
      omega
    rw [before, unitsOf_eq (Or.inr (by decide)) (by omega), Nat.pow_succ, ← Nat.mul_add]
    refine Nat.mul_le_mul_left _ ?_
    have spacing := Nat.two_pow_pos b
    rw [Nat.sub_mul, Nat.add_mul, Nat.one_mul, Nat.one_mul, Nat.mul_assoc 2,
      ← Nat.mul_assoc binadeSize]
    omega
  · cases r with
    | zero =>
        obtain rfl : b = 0 := normal.resolve_right (by decide)
        omega
    | succ r =>
        rw [← Nat.add_assoc, Nat.add_sub_cancel, unitsOf_eq (by omega) (by omega)]
        nlinarith [Nat.two_pow_pos b]

theorem magnitude_gap {code : Nat} (positive : 0 < code) :
    magnitude code + binadeSize * magnitude (code - 1) ≤ binadeSize * magnitude (code + 1) := by
  have gap : (unitsOf code + binadeSize * unitsOf (code - 1) : ℚ) ≤
      binadeSize * unitsOf (code + 1) := by
    exact_mod_cast unitsOf_gap positive
  unfold magnitude
  rw [mul_div_assoc', mul_div_assoc', ← add_div]
  exact div_le_div_of_nonneg_right gap unitsPerOne_pos.le

theorem RoundsTo.of_lt {x : ℚ} {code : Nat} (low : magnitude (code - 1) + magnitude code < 2 * x)
    (high : 2 * x < magnitude code + magnitude (code + 1)) : RoundsTo x code :=
  { low := low.le
    high := high.le
    strict := fun _ => ⟨low, high⟩ }

end Binary64

namespace Decimal

def value (decimal : Decimal) : ℚ := decimal.digits * 10 ^ decimal.exponent

/-! ### The interval of a code -/

theorem shiftRatio_pos (numerator : Nat) {denominator : Nat} (positive : 0 < denominator)
    (exponent : Int) : 0 < (shiftRatio numerator denominator exponent).2 := by
  unfold shiftRatio
  split
  · exact Nat.mul_pos positive (Nat.pow_pos (by decide))
  · exact positive

theorem shiftRatio_div (numerator denominator : Nat) (exponent : Int) :
    ((shiftRatio numerator denominator exponent).1 : ℚ) /
        (shiftRatio numerator denominator exponent).2 =
      numerator / denominator * 10 ^ exponent := by
  unfold shiftRatio
  split
  · rename_i negative
    have size : exponent = -(exponent.natAbs : Int) := by omega
    rw [size, Int.natAbs_neg, Int.natAbs_natCast, zpow_neg, zpow_natCast, Nat.pow_eq,
      Nat.cast_mul, Nat.cast_pow, Nat.cast_ofNat, div_mul_eq_div_div, div_eq_mul_inv _ (10 ^ _)]
  · rename_i natural
    have size : exponent = (exponent.natAbs : Int) := by omega
    rw [size, Int.natAbs_natCast, zpow_natCast, Nat.pow_eq, Nat.cast_mul, Nat.cast_pow,
      Nat.cast_ofNat, mul_div_right_comm]

theorem holds_ofCode_iff {code digits : Nat} {exponent : Int} :
    (Interval.ofCode code).holds digits exponent = true ↔
      RoundsTo (value ⟨digits, exponent⟩) code := by
  have positive := shiftRatio_pos digits Nat.one_pos exponent
  have ratio := shiftRatio_div digits 1 exponent
  rw [Nat.cast_one, div_one] at ratio
  unfold Interval.holds
  rw [value, ← ratio, roundsTo_div_iff positive]
  obtain ⟨point, base⟩ := shiftRatio digits 1 exponent
  have twice : point * (2 * unitsPerOne) = 2 * (point * unitsPerOne) := by ring
  simp only [Interval.ofCode, twice, Nat.add_comm (unitsOf (code - 1))]
  rcases Nat.mod_two_eq_zero_or_one code with even | odd
  · simp [even]
  · simp [odd]
    omega

/-! ### The grids -/

theorem onGrid_holds {interval : Interval} {exponent : Int} {hit : Decimal}
    (found : onGrid interval exponent = some hit) :
    interval.holds hit.digits hit.exponent = true := by
  unfold onGrid at found
  dsimp only at found
  generalize (shiftRatio interval.middle interval.denominator (-exponent)).1 = numerator at found
  generalize (shiftRatio interval.middle interval.denominator (-exponent)).2 = base at found
  split at found
  · rename_i below above
    cases found
    dsimp only
    rcases roundHalfEven_eq numerator base with same | same
    · rw [same, below]
    · rw [same, above]
  · rename_i below _
    cases found
    exact below
  · rename_i _ above
    cases found
    exact above
  · cases found

theorem twice_div (code : Nat) :
    ((2 * unitsOf code : Nat) : ℚ) / (2 * unitsPerOne : Nat) = magnitude code := by
  rw [Nat.cast_mul, Nat.cast_mul, Nat.cast_ofNat, mul_div_mul_left _ _ two_ne_zero, magnitude]

theorem exists_onGrid_of_holds {interval : Interval} {exponent : Int}
    (either :
      let ratio := shiftRatio interval.middle interval.denominator (-exponent)
      interval.holds (ratio.1 / ratio.2) exponent = true ∨
        interval.holds (ratio.1 / ratio.2 + 1) exponent = true) :
    ∃ hit, onGrid interval exponent = some hit := by
  unfold onGrid
  dsimp only at either ⊢
  split
  · exact ⟨_, rfl⟩
  · exact ⟨_, rfl⟩
  · exact ⟨_, rfl⟩
  · rename_i below above
    rw [below, above] at either
    simp at either

/-- On a grid of at most `10 ^ -16` of a magnitude, a neighbour of the magnitude rounds to it. -/
theorem roundsTo_neighbour {code : Nat} (positive : 0 < code) {step below : ℚ}
    (fine : step * 10 ^ 16 ≤ magnitude code)
    (atMost : below * step ≤ magnitude code) (less : magnitude code < (below + 1) * step) :
    RoundsTo (below * step) code ∨ RoundsTo ((below + 1) * step) code := by
  have before : magnitude (code - 1) < magnitude code := magnitude_strictMono (by omega)
  have after : magnitude code < magnitude (code + 1) := magnitude_strictMono (Nat.lt_succ_self _)
  have gap := magnitude_gap positive
  by_contra neither
  rw [not_or] at neither
  have low : 2 * (below * step) ≤ magnitude (code - 1) + magnitude code := by
    by_contra inside
    exact neither.1 (.of_lt (lt_of_not_ge inside) (by linarith))
  have high : magnitude code + magnitude (code + 1) ≤ 2 * ((below + 1) * step) := by
    by_contra inside
    exact neither.2 (.of_lt (by linarith) (lt_of_not_ge inside))
  have size : (binadeSize : ℚ) = 4503599627370496 := by norm_num [binadeSize]
  rw [size] at gap
  linarith

/-- A grid hits if the magnitude is at least `10 ^ 16` of its steps. -/
theorem exists_onGrid {code : Nat} (positive : 0 < code) {exponent : Int}
    (fine : 10 ^ exponent * 10 ^ 16 ≤ magnitude code) :
    ∃ hit, onGrid (Interval.ofCode code) exponent = some hit := by
  have twice : 0 < 2 * unitsPerOne := by decide +kernel
  have base := shiftRatio_pos (2 * unitsOf code) twice (-exponent)
  have ratio := shiftRatio_div (2 * unitsOf code) (2 * unitsPerOne) (-exponent)
  have step : (0 : ℚ) < 10 ^ exponent := zpow_pos (by norm_num) exponent
  rw [twice_div, zpow_neg, ← div_eq_mul_inv, eq_div_iff step.ne'] at ratio
  apply exists_onGrid_of_holds
  change _ = true ∨ _ = true
  rw [holds_ofCode_iff, holds_ofCode_iff]
  unfold value
  dsimp only [Interval.ofCode]
  generalize (shiftRatio (2 * unitsOf code) (2 * unitsPerOne) (-exponent)).1 = numerator at *
  generalize (shiftRatio (2 * unitsOf code) (2 * unitsPerOne) (-exponent)).2 = denominator at *
  rw [Nat.cast_add, Nat.cast_one]
  have positiveBase : (0 : ℚ) < denominator := Nat.cast_pos.mpr base
  refine roundsTo_neighbour positive fine ?_ ?_
  · rw [← ratio]
    refine mul_le_mul_of_nonneg_right ?_ step.le
    rw [le_div_iff₀ positiveBase]
    exact_mod_cast Nat.div_mul_le_self ..
  · rw [← ratio]
    refine mul_lt_mul_of_pos_right ?_ step
    rw [div_lt_iff₀ positiveBase, mul_comm]
    exact_mod_cast Nat.lt_mul_div_succ numerator base

/-! ### The search -/

theorem leadingZeros_spec {fuel numerator denominator : Nat}
    (enough : denominator ≤ numerator * 10 ^ fuel) :
    denominator ≤ numerator * 10 ^ leadingZeros fuel numerator denominator := by
  induction fuel generalizing numerator with
  | zero => exact enough
  | succ fuel ih =>
      rw [leadingZeros]
      split
      · rwa [pow_zero, Nat.mul_one]
      · rw [pow_succ', ← Nat.mul_assoc] at enough ⊢
        exact ih enough

theorem pow_leadingExponent_le {numerator denominator : Nat} (positive : 0 < denominator)
    (enough : denominator ≤ numerator * 10 ^ 400) :
    (10 : ℚ) ^ leadingExponent numerator denominator ≤ numerator / denominator := by
  have base : (0 : ℚ) < denominator := Nat.cast_pos.mpr positive
  unfold leadingExponent
  split
  · rename_i large
    have some : 0 < numerator / denominator := Nat.div_pos large positive
    have digits := Nat.length_toDigits_pos (b := 10) (n := numerator / denominator)
    obtain ⟨more, length⟩ := Nat.exists_eq_add_one.mpr digits
    have least : 10 ^ more ≤ numerator / denominator := by
      cases more with
      | zero => exact some
      | succ more =>
          by_contra below
          have short := (Nat.length_toDigits_le_iff (b := 10) (by decide)
            (Nat.succ_pos more)).mpr (Nat.lt_of_not_le below)
          omega
    rw [length, Nat.cast_add, Nat.cast_one, add_sub_cancel_right, zpow_natCast,
      le_div_iff₀ base]
    exact_mod_cast (Nat.mul_le_mul_right _ least).trans (Nat.div_mul_le_self ..)
  · rw [zpow_neg, zpow_natCast, le_div_iff₀ base, inv_mul_le_iff₀ (by positivity), mul_comm]
    exact_mod_cast leadingZeros_spec enough

theorem firstHit_holds {interval : Interval} {leading : Int} {hit : Decimal} {more count : Nat}
    (found : firstHit interval leading more count = some hit) :
    interval.holds hit.digits hit.exponent = true := by
  induction more generalizing count with
  | zero => cases found
  | succ more ih =>
      rw [firstHit] at found
      split at found
      · rename_i here
        cases found
        exact onGrid_holds here
      · exact ih found

theorem exists_firstHit {interval : Interval} {leading : Int} {more : Nat} (further count : Nat)
    (bounded : further < more)
    (late : ∃ hit, onGrid interval (leading - (count + further : Nat) + 1) = some hit) :
    ∃ hit, firstHit interval leading more count = some hit := by
  induction more generalizing further count with
  | zero => omega
  | succ more ih =>
      rw [firstHit]
      split
      · exact ⟨_, rfl⟩
      · rename_i miss
        cases further with
        | zero =>
            obtain ⟨hit, found⟩ := late
            rw [Nat.add_zero, miss] at found
            cases found
        | succ further =>
            refine ih further (count + 1) (by omega) ?_
            rwa [Nat.add_right_comm]

/-- The decimal of a code rounds to the code. -/
theorem ofCode_roundsTo (code : Nat) : RoundsTo (ofCode code).value code := by
  rw [← holds_ofCode_iff]
  unfold ofCode
  split
  · rename_i zero
    subst zero
    decide +kernel
  · rename_i nonzero
    have positive : 0 < code := Nat.pos_of_ne_zero nonzero
    have twice : 0 < 2 * unitsPerOne := by decide +kernel
    have reach : unitsPerOne ≤ 10 ^ 400 := by decide +kernel
    have enough : 2 * unitsPerOne ≤ 2 * unitsOf code * 10 ^ 400 := by
      have some : 1 ≤ unitsOf code := unitsOf_strictMono positive
      have more := Nat.mul_le_mul some reach
      rw [Nat.mul_assoc]
      omega
    have least := pow_leadingExponent_le twice enough
    rw [twice_div] at least
    dsimp only
    have search : leadingExponent (Interval.ofCode code).middle (Interval.ofCode code).denominator =
        leadingExponent (2 * unitsOf code) (2 * unitsPerOne) := rfl
    rw [search]
    generalize leadingExponent (2 * unitsOf code) (2 * unitsPerOne) = leading at *
    have fine : (10 : ℚ) ^ (leading - (1 + 16 : Nat) + 1) * 10 ^ 16 ≤ magnitude code := by
      have whole : leading - (1 + 16 : Nat) + 1 + (16 : Nat) = leading := by omega
      rw [← zpow_natCast, ← zpow_add₀ (by norm_num), whole]
      exact least
    have found : ∃ hit, firstHit (Interval.ofCode code) leading mostDigits 1 = some hit :=
      exists_firstHit 16 1 (by decide) (exists_onGrid positive fine)
    obtain ⟨hit, found⟩ := found
    rw [found]
    exact firstHit_holds found

end Decimal

end TemplateFill
