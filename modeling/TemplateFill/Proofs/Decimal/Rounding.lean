import Mathlib.Algebra.Order.Field.Rat
import Mathlib.Data.Nat.Log
import Mathlib.Tactic.FieldSimp
import Mathlib.Tactic.Linarith
import Mathlib.Tactic.Positivity
import Mathlib.Tactic.Ring
import TemplateFill.Decimal.Binary64

/-!
Rounding to the nearest binary64 magnitude.

Every magnitude is a significand times a power of two, and codes count significands on through the
binades. A number rounds to a code if it is not farther from its magnitude than half way to either
neighbour, and half way only if the code is even. No number rounds to two codes, and the code
computed for a ratio is the one that it rounds to.
-/

namespace TemplateFill

namespace Binary64

/-! ### Magnitudes -/

def magnitude (code : Nat) : ℚ := unitsOf code / unitsPerOne

theorem unitsPerOne_pos : (0 : ℚ) < unitsPerOne := by
  have positive : 0 < unitsPerOne := by decide +kernel
  exact Nat.cast_pos.mpr positive

/-- The significand `r` on the grid of spacing `2 ^ b`. The last one is the first of the next
binade. -/
theorem unitsOf_eq {b r : Nat} (normal : b = 0 ∨ binadeSize ≤ r) (bounded : r ≤ 2 * binadeSize) :
    unitsOf (b * binadeSize + r) = r * 2 ^ b := by
  have positive : 0 < binadeSize := by decide
  unfold unitsOf
  rcases Nat.lt_or_ge r binadeSize with small | large
  · obtain rfl : b = 0 := normal.resolve_right (by omega)
    rw [if_pos (by omega)]
    omega
  · rw [if_neg (by nlinarith), Nat.pow_eq]
    rcases Nat.lt_or_eq_of_le bounded with inside | rfl
    · have split : b * binadeSize + r = (r - binadeSize) + binadeSize * (b + 1) := by
        rw [Nat.mul_add, Nat.mul_comm b]
        omega
      rw [split, Nat.add_mul_mod_self_left, Nat.add_mul_div_left _ _ positive,
        Nat.mod_eq_of_lt (by omega), Nat.div_eq_of_lt (by omega), Nat.zero_add,
        Nat.add_sub_cancel, Nat.add_sub_cancel' large]
    · have split : b * binadeSize + 2 * binadeSize = binadeSize * (b + 2) := by ring
      rw [split, Nat.mul_mod_right, Nat.mul_div_cancel_left _ positive]
      have next : b + 2 - 1 = b + 1 := by omega
      rw [next, pow_succ]
      ring

theorem exists_significand (code : Nat) :
    ∃ b r, code = b * binadeSize + r ∧ (b = 0 ∨ binadeSize ≤ r) ∧ r < 2 * binadeSize := by
  have positive : 0 < binadeSize := by decide
  have split := Nat.div_add_mod code binadeSize
  have below := Nat.mod_lt code positive
  cases quotient : code / binadeSize with
  | zero =>
      rw [quotient] at split
      exact ⟨0, code % binadeSize, by omega, Or.inl rfl, by omega⟩
  | succ b =>
      rw [quotient] at split
      refine ⟨b, binadeSize + code % binadeSize, ?_, Or.inr (Nat.le_add_right ..), by omega⟩
      rw [← Nat.add_assoc, ← Nat.succ_mul, Nat.mul_comm, Nat.succ_eq_add_one, split]

theorem unitsOf_succ {b r : Nat} (normal : b = 0 ∨ binadeSize ≤ r) (bounded : r < 2 * binadeSize) :
    unitsOf (b * binadeSize + r + 1) = (r + 1) * 2 ^ b := by
  rw [Nat.add_assoc]
  exact unitsOf_eq (normal.imp_right Nat.le_succ_of_le) bounded

theorem unitsOf_strictMono : StrictMono unitsOf := by
  refine strictMono_nat_of_lt_succ fun code => ?_
  obtain ⟨b, r, rfl, normal, bounded⟩ := exists_significand code
  rw [unitsOf_succ normal bounded, unitsOf_eq normal bounded.le, Nat.succ_mul]
  exact Nat.lt_add_of_pos_right (Nat.two_pow_pos b)

theorem magnitude_strictMono : StrictMono magnitude := fun _ _ less =>
  div_lt_div_of_pos_right (Nat.cast_lt.mpr (unitsOf_strictMono less)) unitsPerOne_pos

/-! ### Rounding -/

/-- A number is nearest to the magnitude of a code: it is at most half way from its neighbours, and
half way only if the code is even. -/
structure RoundsTo (x : ℚ) (code : Nat) : Prop where
  low : magnitude (code - 1) + magnitude code ≤ 2 * x
  high : 2 * x ≤ magnitude code + magnitude (code + 1)
  strict : code % 2 = 1 →
    magnitude (code - 1) + magnitude code < 2 * x ∧ 2 * x < magnitude code + magnitude (code + 1)

theorem RoundsTo.not_lt {x : ℚ} {code later : Nat} (here : RoundsTo x code)
    (there : RoundsTo x later) : ¬code < later := by
  intro less
  have first : magnitude code ≤ magnitude (later - 1) := magnitude_strictMono.monotone (by omega)
  have second : magnitude (code + 1) ≤ magnitude later := magnitude_strictMono.monotone less
  have high := here.high
  have low := there.low
  -- the intervals of the two codes meet in an end at most, and two codes with an end in common
  -- are not both even
  by_cases adjacent : later = code + 1
  · subst adjacent
    rcases Nat.mod_two_eq_zero_or_one code with even | odd
    · have strict := (there.strict (by omega)).1
      rw [Nat.add_sub_cancel] at strict
      linarith
    · have strict := (here.strict odd).2
      linarith
  · have apart : magnitude code < magnitude (later - 1) := magnitude_strictMono (by omega)
    linarith

theorem RoundsTo.unique {x : ℚ} {code other : Nat} (here : RoundsTo x code)
    (there : RoundsTo x other) : code = other :=
  Nat.le_antisymm (Nat.le_of_not_lt (there.not_lt here)) (Nat.le_of_not_lt (here.not_lt there))

/-- The whole number nearest to a ratio differs from it by a half at most, and by less if it is
odd. -/
theorem roundHalfEven_spec (numerator : Nat) {denominator : Nat} (positive : 0 < denominator) :
    let nearest := roundHalfEven numerator denominator
    2 * (nearest * denominator) ≤ 2 * numerator + denominator ∧
      2 * numerator ≤ 2 * (nearest * denominator) + denominator ∧
      (nearest % 2 = 1 → 2 * (nearest * denominator) < 2 * numerator + denominator ∧
        2 * numerator < 2 * (nearest * denominator) + denominator) := by
  have split := Nat.div_add_mod numerator denominator
  have below := Nat.mod_lt numerator positive
  unfold roundHalfEven
  dsimp only
  rw [Nat.mul_comm] at split
  split
  · omega
  · split
    · rw [Nat.add_mul, Nat.one_mul]
      omega
    · rcases Nat.mod_two_eq_zero_or_one (numerator / denominator) with even | odd
      · rw [even, Nat.add_zero]
        omega
      · rw [odd, Nat.add_mul, Nat.one_mul]
        omega

theorem roundHalfEven_eq (numerator denominator : Nat) :
    roundHalfEven numerator denominator = numerator / denominator ∨
      roundHalfEven numerator denominator = numerator / denominator + 1 := by
  unfold roundHalfEven
  dsimp only
  split
  · exact Or.inl rfl
  · split
    · exact Or.inr rfl
    · rcases Nat.mod_two_eq_zero_or_one (numerator / denominator) with even | odd
      · exact Or.inl (by rw [even, Nat.add_zero])
      · exact Or.inr (by rw [odd])

theorem roundsTo_div_iff {numerator denominator code : Nat} (positive : 0 < denominator) :
    RoundsTo (numerator / denominator) code ↔
      (unitsOf (code - 1) + unitsOf code) * denominator ≤ 2 * (numerator * unitsPerOne) ∧
        2 * (numerator * unitsPerOne) ≤ (unitsOf code + unitsOf (code + 1)) * denominator ∧
        (code % 2 = 1 →
          (unitsOf (code - 1) + unitsOf code) * denominator < 2 * (numerator * unitsPerOne) ∧
            2 * (numerator * unitsPerOne) <
              (unitsOf code + unitsOf (code + 1)) * denominator) := by
  have base : (0 : ℚ) < denominator := Nat.cast_pos.mpr positive
  have one := unitsPerOne_pos
  have sum (left right : Nat) : magnitude left + magnitude right =
      ((unitsOf left + unitsOf right : Nat) : ℚ) / unitsPerOne := by
    rw [magnitude, magnitude, ← add_div, Nat.cast_add]
  have twice : 2 * ((numerator : ℚ) / denominator) = ((2 * numerator : Nat) : ℚ) / denominator := by
    rw [Nat.cast_mul, Nat.cast_ofNat, mul_div_assoc]
  have le_iff (units : Nat) :
      (units : ℚ) / unitsPerOne ≤ ((2 * numerator : Nat) : ℚ) / denominator ↔
        units * denominator ≤ 2 * (numerator * unitsPerOne) := by
    rw [div_le_div_iff₀ one base, ← Nat.mul_assoc]
    exact_mod_cast Iff.rfl
  have ge_iff (units : Nat) :
      ((2 * numerator : Nat) : ℚ) / denominator ≤ (units : ℚ) / unitsPerOne ↔
        2 * (numerator * unitsPerOne) ≤ units * denominator := by
    rw [div_le_div_iff₀ base one, ← Nat.mul_assoc]
    exact_mod_cast Iff.rfl
  constructor
  · rintro ⟨low, high, strict⟩
    rw [sum, twice] at low high strict
    rw [sum] at strict
    simp only [← not_le, ge_iff, le_iff] at low high strict ⊢
    exact ⟨low, high, strict⟩
  · rintro ⟨low, high, strict⟩
    refine ⟨?_, ?_, ?_⟩
    · rw [sum, twice, le_iff]
      exact low
    · rw [sum, twice, ge_iff]
      exact high
    · rw [sum, sum, twice, ← not_le, ← not_le, ge_iff, le_iff, not_le, not_le]
      exact strict

section Significand

variable {denominator b r scaled : Nat}

theorem unitsOf_mul (significand : b = 0 ∨ binadeSize ≤ r) (atMost : r ≤ 2 * binadeSize) :
    unitsOf (b * binadeSize + r) * denominator = r * (denominator * 2 ^ b) := by
  rw [unitsOf_eq significand atMost]
  ring

theorem low_of_significand (positive : 0 < denominator) (significand : b = 0 ∨ binadeSize ≤ r)
    (atMost : r ≤ 2 * binadeSize)
    (normal : b = 0 ∨ binadeSize * (denominator * 2 ^ b) ≤ scaled)
    (low : 2 * (r * (denominator * 2 ^ b)) ≤ 2 * scaled + denominator * 2 ^ b)
    (strict : r % 2 = 1 → 2 * (r * (denominator * 2 ^ b)) < 2 * scaled + denominator * 2 ^ b) :
    (unitsOf (b * binadeSize + r - 1) + unitsOf (b * binadeSize + r)) * denominator ≤ 2 * scaled ∧
      (r % 2 = 1 →
        (unitsOf (b * binadeSize + r - 1) + unitsOf (b * binadeSize + r)) * denominator <
          2 * scaled) := by
  rw [Nat.add_mul, unitsOf_mul significand atMost]
  by_cases first : b ≠ 0 ∧ r = binadeSize
  · -- below the first magnitude of a binade the grid is finer, but the ratio is not below it
    obtain ⟨later, rfl⟩ := first
    have some : 0 < b * binadeSize + binadeSize := Nat.add_pos_right _ (by decide)
    have inside := normal.resolve_left later
    have before : unitsOf (b * binadeSize + binadeSize - 1) * denominator <
        unitsOf (b * binadeSize + binadeSize) * denominator :=
      Nat.mul_lt_mul_of_pos_right (unitsOf_strictMono (Nat.sub_one_lt_of_lt some)) positive
    rw [unitsOf_mul significand atMost] at before
    omega
  · cases r with
    | zero =>
        obtain rfl : b = 0 := significand.resolve_right (by decide)
        simp [unitsOf, binadeSize]
    | succ r =>
        rw [← Nat.add_assoc, Nat.add_sub_cancel, unitsOf_mul (by omega) (by omega)]
        rw [Nat.succ_mul r] at low strict ⊢
        omega

theorem high_of_significand (positive : 0 < denominator) (significand : b = 0 ∨ binadeSize ≤ r)
    (atMost : r ≤ 2 * binadeSize) (bounded : scaled < 2 * binadeSize * (denominator * 2 ^ b))
    (high : 2 * scaled ≤ 2 * (r * (denominator * 2 ^ b)) + denominator * 2 ^ b)
    (strict : r % 2 = 1 → 2 * scaled < 2 * (r * (denominator * 2 ^ b)) + denominator * 2 ^ b) :
    2 * scaled ≤ (unitsOf (b * binadeSize + r) + unitsOf (b * binadeSize + r + 1)) * denominator ∧
      (r % 2 = 1 → 2 * scaled <
        (unitsOf (b * binadeSize + r) + unitsOf (b * binadeSize + r + 1)) * denominator) := by
  rw [Nat.add_mul, unitsOf_mul significand atMost]
  rcases Nat.lt_or_eq_of_le atMost with inside | rfl
  · rw [Nat.add_assoc, unitsOf_mul (significand.imp_right Nat.le_succ_of_le) inside, Nat.succ_mul r]
    omega
  · -- the ratio is below the last significand, which is the first of the next binade
    have next := Nat.mul_lt_mul_of_pos_right
      (unitsOf_strictMono (Nat.lt_succ_self (b * binadeSize + 2 * binadeSize))) positive
    rw [unitsOf_mul significand atMost, Nat.succ_eq_add_one] at next
    omega

end Significand

/-- On the grid of the binade that a ratio lies in, rounding to a whole significand is rounding to
the code with that significand. -/
theorem roundsTo_significand {numerator denominator b : Nat} (positive : 0 < denominator)
    (normal : b = 0 ∨ binadeSize * (denominator * 2 ^ b) ≤ numerator * unitsPerOne)
    (bounded : numerator * unitsPerOne < 2 * binadeSize * (denominator * 2 ^ b)) :
    RoundsTo (numerator / denominator)
      (b * binadeSize + roundHalfEven (numerator * unitsPerOne) (denominator * 2 ^ b)) := by
  rw [roundsTo_div_iff positive]
  have spacing : 0 < denominator * 2 ^ b := Nat.mul_pos positive (Nat.two_pow_pos b)
  obtain ⟨low, high, strict⟩ := roundHalfEven_spec (numerator * unitsPerOne) spacing
  generalize roundHalfEven (numerator * unitsPerOne) (denominator * 2 ^ b) = r at *
  generalize numerator * unitsPerOne = scaled at *
  have atMost : r ≤ 2 * binadeSize := by
    by_contra beyond
    have more := Nat.mul_le_mul_right (denominator * 2 ^ b) (Nat.lt_of_not_le beyond)
    rw [Nat.succ_mul] at more
    omega
  have significand : b = 0 ∨ binadeSize ≤ r := by
    refine normal.imp_right fun inside => ?_
    by_contra beyond
    have less := Nat.mul_le_mul_right (denominator * 2 ^ b) (Nat.lt_of_not_le beyond)
    rw [Nat.succ_mul] at less
    omega
  have parity : (b * binadeSize + r) % 2 = r % 2 := by
    have even : binadeSize % 2 = 0 := by decide
    rw [Nat.add_mod, Nat.mul_mod, even, Nat.mul_zero, Nat.zero_mod, Nat.zero_add, Nat.mod_mod]
  have below := low_of_significand positive significand atMost normal low fun odd => (strict odd).1
  have above :=
    high_of_significand positive significand atMost bounded high fun odd => (strict odd).2
  rw [parity]
  exact ⟨below.1, above.1, fun odd => ⟨below.2 odd, above.2 odd⟩⟩

theorem nearestCode_roundsTo (numerator : Nat) {denominator : Nat} (positive : 0 < denominator) :
    RoundsTo (numerator / denominator) (nearestCode numerator denominator) := by
  unfold nearestCode
  dsimp only
  rw [Nat.pow_eq]
  have size : binadeSize = 2 ^ 52 := by decide
  have atMost := Nat.mul_div_le (numerator * unitsPerOne) denominator
  have less := Nat.lt_mul_div_succ (numerator * unitsPerOne) positive
  generalize numerator * unitsPerOne / denominator = whole at *
  have power (b : Nat) : binadeSize * (denominator * 2 ^ b) = denominator * 2 ^ (52 + b) := by
    rw [size, pow_add]
    ring
  apply roundsTo_significand positive
  · rcases Nat.le_total whole.log2 52 with low | high
    · exact Or.inl (Nat.sub_eq_zero_of_le low)
    · right
      have some : whole ≠ 0 := by
        rintro rfl
        exact absurd high (by decide)
      rw [power, Nat.add_sub_cancel' high]
      exact (Nat.mul_le_mul_left _ (Nat.log2_self_le some)).trans atMost
  · have reach : whole + 1 ≤ 2 ^ (52 + (whole.log2 - 52) + 1) :=
      Nat.lt_log2_self.trans_le (Nat.pow_le_pow_right Nat.two_pos (by omega))
    rw [Nat.mul_assoc, power]
    refine less.trans_le ((Nat.mul_le_mul_left _ reach).trans (Nat.le_of_eq ?_))
    rw [pow_succ]
    ring

theorem nearestCode_eq_iff {numerator denominator code : Nat} (positive : 0 < denominator) :
    nearestCode numerator denominator = code ↔ RoundsTo (numerator / denominator) code := by
  have rounds := nearestCode_roundsTo numerator positive
  constructor
  · rintro rfl
    exact rounds
  · exact rounds.unique

end Binary64

end TemplateFill
