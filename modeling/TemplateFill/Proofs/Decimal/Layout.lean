import Mathlib.Data.List.TakeWhile
import TemplateFill.Proofs.Decimal.Shortest
import TemplateFill.Proofs.Path.PlainPath
import TemplateFill.Text.Characters

/-!
What the text of a decimal says.

In plain layout a decimal is written as digits before a point and digits behind it, at least one of
each, and read as such they are worth the decimal: the zeros at the end of the digits are left out,
and those that the place of the point asks for are put in.
-/

namespace TemplateFill

namespace Text

/-! ### Runs of digits -/

theorem foldl_digits (digits : List Char) (start : Nat) :
    digits.foldl (fun value c => value * 10 + digitValue c) start =
      start * 10 ^ digits.length + digitsValue digits := by
  induction digits generalizing start with
  | nil => simp [digitsValue]
  | cons c digits ih =>
      rw [digitsValue, List.foldl_cons, List.foldl_cons, ih, ih (0 * 10 + digitValue c),
        List.length_cons]
      ring

theorem digitsValue_append (before behind : List Char) :
    digitsValue (before ++ behind) =
      digitsValue before * 10 ^ behind.length + digitsValue behind := by
  rw [digitsValue, List.foldl_append, foldl_digits]
  rfl

@[simp] theorem digitsValue_zeros (count : Nat) : digitsValue (List.replicate count '0') = 0 := by
  induction count with
  | zero => rfl
  | succ count ih =>
      rw [List.replicate_succ', digitsValue_append, ih]
      rfl

theorem digitsValue_zero_cons (digits : List Char) :
    digitsValue ('0' :: digits) = digitsValue digits := rfl

theorem digitsValue_singleton_le {c : Char} (digit : c.isDigit = true) : digitsValue [c] ≤ 9 := by
  have atMost : c.toNat ≤ '9'.toNat := by
    simp only [Char.isDigit, Bool.and_eq_true, decide_eq_true_eq] at digit
    exact UInt32.le_iff_toNat_le.mp digit.2
  have value : digitsValue [c] = c.toNat - '0'.toNat := Nat.zero_add _
  rw [value]
  exact Nat.sub_le_sub_right atMost '0'.toNat

theorem isDigit_of_mem_zeros {count : Nat} {c : Char} (inside : c ∈ List.replicate count '0') :
    c.isDigit = true := by
  rw [List.eq_of_mem_replicate inside]
  rfl

end Text

namespace Decimal

open Text Binary64

/-! ### The digits -/

theorem exists_zeros (decimal : Decimal) :
    ∃ zeros, decimal.digits = digitsValue decimal.significantDigits * 10 ^ zeros ∧
      (Nat.toDigits 10 decimal.digits).length = decimal.significantDigits.length + zeros := by
  have written := Text.digitsValue_toDigits decimal.digits
  have split := List.takeWhile_append_dropWhile (p := (· == '0'))
    (l := (Nat.toDigits 10 decimal.digits).reverse)
  have tail (text : List Char) : (text.takeWhile (· == '0')).reverse =
      List.replicate (text.takeWhile (· == '0')).length '0' := by
    rw [List.eq_replicate_iff]
    refine ⟨List.length_reverse, fun c inside => ?_⟩
    have zero := List.mem_takeWhile_imp (List.mem_reverse.mp inside)
    exact eq_of_beq zero
  replace split := congrArg List.reverse split
  rw [List.reverse_append, List.reverse_reverse, tail] at split
  unfold significantDigits
  dsimp only
  generalize ((Nat.toDigits 10 decimal.digits).reverse.takeWhile (· == '0')).length = zeros at split
  generalize ((Nat.toDigits 10 decimal.digits).reverse.dropWhile (· == '0')).reverse = trimmed at *
  rw [← split, digitsValue_append, digitsValue_zeros, List.length_replicate,
    Nat.add_zero] at written
  by_cases none : trimmed = []
  · subst none
    have zero : decimal.digits = 0 := by simpa [digitsValue] using written.symm
    refine ⟨0, ?_, ?_⟩
    · rw [zero]
      rfl
    · rw [zero]
      rfl
  · have some : trimmed.isEmpty = false := by simpa using none
    refine ⟨zeros, ?_, ?_⟩
    · rw [some, if_neg Bool.false_ne_true]
      exact written.symm
    · rw [some, if_neg Bool.false_ne_true, ← split, List.length_append, List.length_replicate]

theorem significantDigits_ne_nil (decimal : Decimal) : decimal.significantDigits ≠ [] := by
  unfold significantDigits
  dsimp only
  split
  · exact List.cons_ne_nil _ _
  · rename_i some
    rwa [List.isEmpty_iff] at some

theorem isDigit_of_mem_significantDigits {decimal : Decimal} {c : Char}
    (inside : c ∈ decimal.significantDigits) : c.isDigit = true := by
  unfold significantDigits at inside
  dsimp only at inside
  split at inside
  · cases List.mem_singleton.mp inside
    rfl
  · have kept := (List.dropWhile_suffix _).subset (List.mem_reverse.mp inside)
    exact Nat.isDigit_of_mem_toDigits (by decide) (by decide) (List.mem_reverse.mp kept)

/-- The significant digits are worth the decimal at the place of its leading digit. -/
theorem value_eq (decimal : Decimal) :
    decimal.value = digitsValue decimal.significantDigits *
      10 ^ (decimal.exponentOfLeading - decimal.significantDigits.length + 1) := by
  obtain ⟨zeros, digits, length⟩ := decimal.exists_zeros
  have place : decimal.exponentOfLeading - decimal.significantDigits.length + 1 =
      zeros + decimal.exponent := by
    rw [exponentOfLeading, length]
    omega
  rw [place, value, zpow_add₀ (by norm_num), zpow_natCast, ← mul_assoc]
  congr 1
  exact_mod_cast digits

/-! ### Plain layout -/

/-- A text is a number with a point: digits before it, digits behind it, worth the given number. -/
structure WritesPoint (text : List Char) (number : ℚ) (whole fraction : List Char) : Prop where
  text_eq : text = whole ++ '.' :: fraction
  whole_ne_nil : whole ≠ []
  fraction_ne_nil : fraction ≠ []
  digits : ∀ c ∈ whole ++ fraction, c.isDigit = true
  worth : (digitsValue (whole ++ fraction) : ℚ) / 10 ^ fraction.length = number

section Plain

variable {digits : List Char} {leading : Int}

theorem writesPoint_below (some : digits ≠ []) (each : ∀ c ∈ digits, c.isDigit = true)
    (negative : leading < 0) :
    WritesPoint (plain digits leading) (digitsValue digits * 10 ^ (leading - digits.length + 1))
      ['0'] (List.replicate (leading.natAbs - 1) '0' ++ digits) where
  text_eq := by rw [plain, if_pos negative]; rfl
  whole_ne_nil := List.cons_ne_nil _ _
  fraction_ne_nil := List.append_ne_nil_of_right_ne_nil _ some
  digits := by
    intro c inside
    rw [List.singleton_append] at inside
    rcases List.mem_cons.mp inside with rfl | inside
    · rfl
    · exact (List.mem_append.mp inside).elim isDigit_of_mem_zeros (each c)
  worth := by
    have place : leading - digits.length + 1 =
        -((leading.natAbs - 1 + digits.length : Nat) : Int) := by
      omega
    rw [List.singleton_append, digitsValue_zero_cons, digitsValue_append, digitsValue_zeros,
      Nat.zero_mul, Nat.zero_add, List.length_append, List.length_replicate, place, zpow_neg,
      zpow_natCast, div_eq_mul_inv]

theorem writesPoint_short (some : digits ≠ []) (each : ∀ c ∈ digits, c.isDigit = true)
    (natural : ¬leading < 0) (short : digits.length ≤ leading.natAbs + 1) :
    WritesPoint (plain digits leading) (digitsValue digits * 10 ^ (leading - digits.length + 1))
      (digits ++ List.replicate (leading.natAbs + 1 - digits.length) '0') ['0'] where
  text_eq := by
    rw [plain, if_neg natural]
    dsimp only
    rw [List.drop_eq_nil_of_le short, List.take_of_length_le short]
    rfl
  whole_ne_nil := List.append_ne_nil_of_left_ne_nil some _
  fraction_ne_nil := List.cons_ne_nil _ _
  digits := by
    intro c inside
    rcases List.mem_append.mp inside with inside | inside
    · exact (List.mem_append.mp inside).elim (each c) isDigit_of_mem_zeros
    · cases List.mem_singleton.mp inside
      rfl
  worth := by
    have place : leading - digits.length + 1 =
        ((leading.natAbs + 1 - digits.length : Nat) : Int) := by
      omega
    rw [digitsValue_append, digitsValue_append, digitsValue_zeros, List.length_replicate, place,
      zpow_natCast]
    simp [digitsValue, digitValue]

theorem writesPoint_long (each : ∀ c ∈ digits, c.isDigit = true) (natural : ¬leading < 0)
    (long : leading.natAbs + 1 < digits.length) :
    WritesPoint (plain digits leading) (digitsValue digits * 10 ^ (leading - digits.length + 1))
      (digits.take (leading.natAbs + 1)) (digits.drop (leading.natAbs + 1)) where
  text_eq := by
    have behind : (digits.drop (leading.natAbs + 1)).isEmpty = false := by
      simpa using long
    have enough : leading.natAbs + 1 - digits.length = 0 := Nat.sub_eq_zero_of_le long.le
    rw [plain, if_neg natural]
    dsimp only
    rw [behind, enough, List.replicate_zero, List.append_nil]
    rfl
  whole_ne_nil := by
    rw [ne_eq, List.take_eq_nil_iff]
    rintro (zero | rfl)
    · omega
    · exact absurd long (Nat.not_lt_zero _)
  fraction_ne_nil := by
    rw [ne_eq, List.drop_eq_nil_iff]
    omega
  digits := by rwa [List.take_append_drop]
  worth := by
    have place : leading - digits.length + 1 =
        -((digits.length - (leading.natAbs + 1) : Nat) : Int) := by
      omega
    rw [List.take_append_drop, List.length_drop, place, zpow_neg, zpow_natCast, div_eq_mul_inv]

theorem exists_writesPoint_plain (some : digits ≠ []) (each : ∀ c ∈ digits, c.isDigit = true)
    (leading : Int) :
    ∃ whole fraction, WritesPoint (plain digits leading)
      (digitsValue digits * 10 ^ (leading - digits.length + 1)) whole fraction := by
  by_cases negative : leading < 0
  · exact ⟨_, _, writesPoint_below some each negative⟩
  · rcases Nat.lt_or_ge (leading.natAbs + 1) digits.length with long | short
    · exact ⟨_, _, writesPoint_long each negative long⟩
    · exact ⟨_, _, writesPoint_short some each negative short⟩

end Plain

theorem WritesPoint.isDigit_or_eq {text whole fraction : List Char} {number : ℚ}
    (writes : WritesPoint text number whole fraction) {c : Char} (inside : c ∈ text) :
    c.isDigit = true ∨ c = '.' := by
  rw [writes.text_eq] at inside
  rcases List.mem_append.mp inside with before | behind
  · exact Or.inl (writes.digits c (List.mem_append_left _ before))
  · rcases List.mem_cons.mp behind with point | behind
    · exact Or.inr point
    · exact Or.inl (writes.digits c (List.mem_append_right _ behind))

/-- A decimal is written with a point alone, or with an exponent. -/
theorem write_eq (layout : Layout) (decimal : Decimal) :
    (∃ whole fraction, WritesPoint (decimal.write layout) decimal.value whole fraction) ∨
      decimal.write layout =
        scientific layout decimal.significantDigits decimal.exponentOfLeading := by
  unfold write
  dsimp only
  split
  · rw [value_eq]
    exact Or.inl (exists_writesPoint_plain decimal.significantDigits_ne_nil
      (fun _ => isDigit_of_mem_significantDigits) _)
  · exact Or.inr rfl

/-- A text without an exponent mark that writes the decimal of a code is nearest to the code. -/
theorem WritesPoint.nearest {text whole fraction : List Char} {code : Nat}
    (writes : WritesPoint text (ofCode code).value whole fraction) :
    nearestCode (digitsValue (whole ++ fraction)) (10 ^ fraction.length) = code := by
  rw [nearestCode_eq_iff (Nat.pow_pos (by decide)), Nat.cast_pow, Nat.cast_ofNat, writes.worth]
  exact ofCode_roundsTo code

end Decimal

end TemplateFill
