import TemplateFill.Json.Printer
import TemplateFill.Proofs.Decimal.Layout
import TemplateFill.Proofs.Path.PlainPath

/-!
Printed numbers as tokens of a path.

An integer is printed as its sign and its digits and read as the integer. A binary64 number that is
printed without an exponent is read as a decimal that is worth the number; with an exponent, its
text falls apart into a number and a name.
-/

namespace TemplateFill

def EndsNumber : List Char → Prop
  | [] => True
  | c :: _ => c.isDigit = false ∧ c ≠ '.'

open Lexer

section Reading

variable {digits fraction rest : List Char}

theorem EndsNumber.endsBefore {token : Token} (ends : EndsNumber rest)
    (number : goesOn token digits = Char.isDigit) : EndsBefore token digits rest := by
  refine ⟨?_, ?_⟩
  · rintro c more rfl
    rw [number]
    exact ends.1
  · rintro value - c more rfl
    exact absurd rfl ends.2

theorem integerText_eq (value : Int) :
    Json.integerText value = signed (value < 0) (Nat.toDigits 10 value.natAbs) := by
  unfold Json.integerText signed
  simp only [decide_eq_true_eq]

theorem reads_integerText {value : Int}
    (fits : leastInteger ≤ value ∧ value ≤ greatestInteger) (ends : EndsNumber rest) :
    Reads (.integer value) (Json.integerText value ++ rest) rest := by
  have each : ∀ c ∈ Nat.toDigits 10 value.natAbs, c.isDigit = true := fun c inside =>
    Nat.isDigit_of_mem_toDigits (by decide) (by decide) inside
  have worth : signedValue (value < 0) (Nat.toDigits 10 value.natAbs) = value := by
    unfold signedValue
    rw [Text.digitsValue_toDigits]
    simp only [decide_eq_true_eq]
    split <;> omega
  have writes : Writes (.integer (signedValue (value < 0) (Nat.toDigits 10 value.natAbs))) _ :=
    .integer Nat.toDigits_ne_nil each (worth.symm ▸ fits)
  rw [worth] at writes
  rw [integerText_eq]
  exact .of_writes writes (ends.endsBefore rfl)

theorem reads_decimal {text : List Char} {number : ℚ} {negative : Bool}
    (writes : Decimal.WritesPoint text number digits fraction) (ends : EndsNumber rest) :
    Reads (.decimal (String.ofList (signed negative text)))
      (signed negative text ++ rest) rest := by
  have each : ∀ c ∈ digits, c.isDigit = true := fun c inside =>
    writes.digits c (List.mem_append_left _ inside)
  have eachFraction : ∀ c ∈ fraction, c.isDigit = true := fun c inside =>
    writes.digits c (List.mem_append_right _ inside)
  rw [writes.text_eq]
  exact .of_writes (.decimal writes.whole_ne_nil writes.fraction_ne_nil each eachFraction)
    (ends.endsBefore rfl)

end Reading

/-! ### Binary64 numbers -/

theorem decimalValue?_signed {negative : Bool} {text digits fraction : List Char} {number : ℚ}
    (writes : Decimal.WritesPoint text number digits fraction) :
    PathParser.decimalValue? (String.ofList (signed negative text)) =
      Binary64.ofRatio? negative (Text.digitsValue (digits ++ fraction))
        (10 ^ fraction.length) := by
  have others : ∀ c ∈ digits, (c != '.') = true := by
    intro c inside
    rw [bne_iff_ne]
    rintro rfl
    exact absurd (writes.digits '.' (List.mem_append_left _ inside)) (by decide)
  have parts (whole : List Char) (same : whole = digits ++ '.' :: fraction) :
      whole.takeWhile (· != '.') = digits ∧ (whole.dropWhile (· != '.')).drop 1 = fraction := by
    subst same
    rw [List.takeWhile_append_of_pos others, List.dropWhile_append_of_pos others]
    simp
  obtain ⟨before, behind⟩ := parts text writes.text_eq
  unfold PathParser.decimalValue?
  rw [String.toList_ofList]
  cases negative with
  | true =>
      change Binary64.ofRatio? true (Text.digitsValue (text.takeWhile (· != '.') ++
        (text.dropWhile (· != '.')).drop 1)) (10 ^ ((text.dropWhile (· != '.')).drop 1).length) = _
      rw [before, behind]
  | false =>
      have unsigned (rest : List Char) : signed false text ≠ '-' :: rest := by
        intro same
        obtain ⟨c, more, rfl⟩ := List.exists_cons_of_ne_nil writes.whole_ne_nil
        cases writes.text_eq.symm.trans same
        exact absurd (writes.digits '-' (List.mem_cons_self ..)) (by decide)
      split
      rename_i negative whole same
      split at same
      · rename_i rest text
        exact absurd text (unsigned rest)
      · cases same
        change Binary64.ofRatio? false (Text.digitsValue (text.takeWhile (· != '.') ++
          (text.dropWhile (· != '.')).drop 1))
            (10 ^ ((text.dropWhile (· != '.')).drop 1).length) = _
        rw [before, behind]

/-- A number is printed behind its sign with a point alone, or with an exponent. -/
theorem binary64Text_eq (number : Binary64) :
    (∃ text whole fraction, Json.binary64Text number = signed number.negative text ∧
        Decimal.WritesPoint text (Decimal.ofCode number.code).value whole fraction) ∨
      ∃ first fraction behind, Json.binary64Text number = signed number.negative
          (first :: (if fraction.isEmpty then [] else '.' :: fraction) ++ 'e' :: behind) ∧
        ∀ c ∈ first :: fraction, c.isDigit = true := by
  have text : Json.binary64Text number =
      signed number.negative (Decimal.write Json.numberLayout (Decimal.ofCode number.code)) := rfl
  rcases Decimal.write_eq Json.numberLayout (Decimal.ofCode number.code) with plain | marked
  · obtain ⟨whole, fraction, writes⟩ := plain
    exact Or.inl ⟨_, whole, fraction, text, writes⟩
  · have each := @Decimal.isDigit_of_mem_significantDigits (Decimal.ofCode number.code)
    have some := (Decimal.ofCode number.code).significantDigits_ne_nil
    rw [text, marked]
    generalize (Decimal.ofCode number.code).significantDigits = digits at *
    generalize (Decimal.ofCode number.code).exponentOfLeading = leading
    obtain ⟨first, fraction, rfl⟩ := List.exists_cons_of_ne_nil some
    have mark : ∃ sign, (if leading < 0 then Json.numberLayout.negativeMark
        else Json.numberLayout.positiveMark).toList = ['e', sign] := by
      split
      · exact ⟨_, rfl⟩
      · exact ⟨_, rfl⟩
    obtain ⟨sign, mark⟩ := mark
    refine Or.inr ⟨first, fraction, sign :: Nat.toDigits 10 leading.natAbs, ?_, fun _ => each⟩
    unfold Decimal.scientific
    dsimp only
    rw [mark]
    simp

theorem exists_writesPoint {number : Binary64} (unmarked : 'e' ∉ Json.binary64Text number) :
    ∃ text whole fraction, Json.binary64Text number = signed number.negative text ∧
      Decimal.WritesPoint text (Decimal.ofCode number.code).value whole fraction := by
  rcases binary64Text_eq number with plain | ⟨first, fraction, behind, same, -⟩
  · exact plain
  · refine absurd ?_ unmarked
    rw [same, signed]
    split <;> simp

/-- A number that is printed without an exponent is read back. -/
theorem decimalValue?_binary64Text {number : Binary64} (unmarked : 'e' ∉ Json.binary64Text number) :
    PathParser.decimalValue? (String.ofList (Json.binary64Text number)) = some number := by
  obtain ⟨text, whole, fraction, same, writes⟩ := exists_writesPoint unmarked
  rw [same, decimalValue?_signed writes, Binary64.ofRatio?, dif_pos]
  · simp only [writes.nearest]
  · rw [writes.nearest]
    exact number.finite

theorem reads_binary64Text {number : Binary64} (unmarked : 'e' ∉ Json.binary64Text number)
    {rest : List Char} (ends : EndsNumber rest) :
    Reads (.decimal (String.ofList (Json.binary64Text number)))
      (Json.binary64Text number ++ rest) rest := by
  obtain ⟨text, whole, fraction, same, writes⟩ := exists_writesPoint unmarked
  rw [same]
  exact reads_decimal writes ends

/-- Where an exponent starts, a name starts. -/
theorem exists_reads_exponent (behind : List Char) :
    ∃ name rest, Reads (.identifier name) ('e' :: behind) rest := by
  have name : ('e' :: behind).takeWhile continuesName = 'e' :: behind.takeWhile continuesName :=
    List.takeWhile_cons_of_pos (by decide)
  have last : ('e' :: behind).dropWhile continuesName = behind.dropWhile continuesName :=
    List.dropWhile_cons_of_pos (by decide)
  have word : Token.ofWord (String.ofList ('e' :: behind.takeWhile continuesName)) =
      .identifier (String.ofList ('e' :: behind.takeWhile continuesName)) := by
    have other (text : String) (different : text.toList.head? ≠ some 'e') :
        String.ofList ('e' :: behind.takeWhile continuesName) ≠ text := by
      rintro rfl
      rw [String.toList_ofList] at different
      exact different rfl
    unfold Token.ofWord
    rw [if_neg (other _ (by decide)), if_neg (other _ (by decide)), if_neg (other _ (by decide))]
  refine ⟨String.ofList ('e' :: behind.takeWhile continuesName), behind.dropWhile continuesName,
    .of_readToken (by decide) (List.dropWhile_suffix _).length_le fun position => ?_⟩
  rw [readToken_word (by decide), if_neg (by decide), readName, name, last, word]
  exact ⟨_, rfl⟩

theorem reads_digit (negative : Bool) {digit : Char} (isDigit : digit.isDigit = true)
    {rest : List Char} (ends : EndsNumber rest) :
    ∃ value, Reads (.integer value) (signed negative [digit] ++ rest) rest := by
  have each : ∀ c ∈ [digit], c.isDigit = true := List.forall_mem_singleton.mpr isDigit
  have bounded := Text.digitsValue_singleton_le isDigit
  have fits : Fits (signedValue negative [digit]) := by
    unfold Fits signedValue leastInteger greatestInteger
    split <;> omega
  exact ⟨_, .of_writes (.integer (List.cons_ne_nil _ _) each fits) (ends.endsBefore rfl)⟩

/-- The digits in front of an exponent are an integer or a decimal. -/
theorem exists_reads_leading (negative : Bool) {first : Char} {fraction : List Char}
    (each : ∀ c ∈ first :: fraction, c.isDigit = true) {rest : List Char} (ends : EndsNumber rest) :
    ∃ token, token ≠ .dot ∧ token ≠ .dotDot ∧ Reads token
      (signed negative (first :: if fraction.isEmpty then [] else '.' :: fraction) ++ rest)
      rest := by
  cases fraction with
  | nil =>
      obtain ⟨value, reads⟩ := reads_digit negative (each first (List.mem_cons_self ..)) ends
      exact ⟨.integer value, by simp, by simp, reads⟩
  | cons next fraction =>
      have writes : Decimal.WritesPoint (first :: '.' :: next :: fraction) _ [first]
          (next :: fraction) :=
        { text_eq := rfl
          whole_ne_nil := List.cons_ne_nil _ _
          fraction_ne_nil := List.cons_ne_nil _ _
          digits := each
          worth := rfl }
      exact ⟨.decimal _, by simp, by simp, reads_decimal writes ends⟩

/-- A number that is printed with an exponent is read as a number and a name. -/
theorem exists_reads_marked {number : Binary64} (marked : 'e' ∈ Json.binary64Text number)
    (rest : List Char) :
    ∃ token name middle behind, token ≠ .dot ∧ token ≠ .dotDot ∧
      Reads token (Json.binary64Text number ++ rest) middle ∧
      Reads (.identifier name) middle behind := by
  rcases binary64Text_eq number with ⟨text, whole, fraction, same, writes⟩ | exponent
  · rw [same] at marked
    have inside : 'e' ∈ text := by
      unfold signed at marked
      split at marked
      · exact (List.mem_cons.mp marked).resolve_left (by decide)
      · exact marked
    exact absurd (writes.isDigit_or_eq inside) (by decide)
  · obtain ⟨first, fraction, behind, same, digits⟩ := exponent
    obtain ⟨name, last, named⟩ := exists_reads_exponent (behind ++ rest)
    have ends : EndsNumber ('e' :: (behind ++ rest)) := ⟨rfl, by decide⟩
    obtain ⟨token, noDot, noDots, leading⟩ := exists_reads_leading number.negative digits ends
    have split : Json.binary64Text number ++ rest = signed number.negative
        (first :: if fraction.isEmpty then [] else '.' :: fraction) ++ 'e' :: (behind ++ rest) := by
      rw [same, signed_append, signed_append]
      simp
    exact ⟨token, name, _, last, noDot, noDots, split ▸ leading, named⟩

end TemplateFill
