import TemplateFill.Text.Occurrences

/-!
Scanning texts for a pattern.

A scan passes over what cannot start an occurrence, takes an occurrence that it stands at, and goes on
behind it. At the end of a text the last occurrence is the whole text, and taking it off leaves what
stands before it.
-/

namespace TemplateFill

namespace Text

variable {pattern replacement : List Char}

/-! ### Replacing -/

theorem replaceFrom_skip (skipped rest : List Char) :
    replaceFrom pattern replacement skipped.length (skipped ++ rest) =
      replaceFrom pattern replacement 0 rest := by
  induction skipped with
  | nil => rfl
  | cons c skipped ih =>
      rw [List.length_cons, List.cons_append, replaceFrom]
      exact ih

theorem replaceFrom_of_isPrefixOf {first : Char} {others : List Char} (rest : List Char) :
    replaceFrom (first :: others) replacement 0 (first :: others ++ rest) =
      replacement ++ replaceFrom (first :: others) replacement 0 rest := by
  have starts : (first :: others).isPrefixOf (first :: (others ++ rest)) = true :=
    List.isPrefixOf_iff_prefix.mpr (List.prefix_append (first :: others) rest)
  rw [List.cons_append, replaceFrom, if_pos starts]
  exact congrArg (replacement ++ ·) (replaceFrom_skip others rest)

theorem replaceFrom_of_not_isPrefixOf {c : Char} {rest : List Char}
    (apart : pattern.isPrefixOf (c :: rest) = false) :
    replaceFrom pattern replacement 0 (c :: rest) =
      c :: replaceFrom pattern replacement 0 rest := by
  rw [replaceFrom, apart]
  rfl

theorem replaceFrom_of_not_mem {first : Char} {others passed : List Char}
    (absent : first ∉ passed) (rest : List Char) :
    replaceFrom (first :: others) replacement 0 (passed ++ rest) =
      passed ++ replaceFrom (first :: others) replacement 0 rest := by
  induction passed with
  | nil => rfl
  | cons c passed ih =>
      simp only [List.mem_cons, not_or] at absent
      rw [List.cons_append, replaceFrom_of_not_isPrefixOf (by simp [List.isPrefixOf, absent.1]),
        ih absent.2, List.cons_append]

theorem replaceAll_of_not_isInfix {text : List Char} (absent : ¬pattern <:+: text) :
    replaceAll pattern replacement text = text := by
  unfold replaceAll
  induction text with
  | nil => rfl
  | cons c rest ih =>
      have apart : pattern.isPrefixOf (c :: rest) = false := by
        rw [Bool.eq_false_iff]
        intro starts
        exact absent (List.isPrefixOf_iff_prefix.mp starts).isInfix
      rw [replaceFrom_of_not_isPrefixOf apart, ih fun inside => absent (List.infix_cons inside)]

/-- If pattern and replacement differ in a character, every occurrence shows in the new text. -/
theorem replaceAll_eq_self_iff {shared others replaced text : List Char} {old new : Char}
    (different : old ≠ new) :
    replaceAll (shared ++ old :: others) (shared ++ new :: replaced) text = text ↔
      ¬(shared ++ old :: others) <:+: text := by
  refine ⟨?_, replaceAll_of_not_isInfix⟩
  intro same inside
  unfold replaceAll at same
  induction text with
  | nil => simp at inside
  | cons c rest ih =>
      cases starts : (shared ++ old :: others).isPrefixOf (c :: rest) with
      | true =>
          obtain ⟨behind, split⟩ := List.isPrefixOf_iff_prefix.mp starts
          rw [replaceFrom, if_pos starts, ← split, List.append_assoc, List.append_assoc,
            List.append_cancel_left_eq, List.cons_append, List.cons_append, List.cons.injEq] at same
          exact different same.1.symm
      | false =>
          rw [replaceFrom_of_not_isPrefixOf starts, List.cons.injEq] at same
          have later : (shared ++ old :: others) <:+: rest := by
            rcases List.infix_cons_iff.mp inside with first | later
            · rw [List.isPrefixOf_iff_prefix.mpr first] at starts
              cases starts
            · exact later
          exact ih same.2 later

/-- Replacing in a text around the pattern: if no occurrence reaches into that one, the parts before
and behind it are taken alone. -/
theorem replaceAll_append_pattern {first : Char} {others rest : List Char}
    (apart : ∀ c text, (first :: others).isPrefixOf (c :: (text ++ (first :: others ++ rest))) =
      (first :: others).isPrefixOf (c :: text)) (text : List Char) :
    replaceAll (first :: others) replacement (text ++ (first :: others ++ rest)) =
      replaceAll (first :: others) replacement text ++
        (replacement ++ replaceAll (first :: others) replacement rest) := by
  suffices scans : ∀ skipped ≤ text.length,
      replaceFrom (first :: others) replacement skipped (text ++ (first :: others ++ rest)) =
        replaceFrom (first :: others) replacement skipped text ++
          (replacement ++ replaceAll (first :: others) replacement rest) from
    scans 0 (Nat.zero_le _)
  induction text with
  | nil =>
      intro skipped within
      cases Nat.le_zero.mp within
      exact replaceFrom_of_isPrefixOf rest
  | cons c text ih =>
      intro skipped within
      cases skipped with
      | succ skipped =>
          rw [List.cons_append, replaceFrom, replaceFrom]
          exact ih skipped (Nat.le_of_succ_le_succ within)
      | zero =>
          rw [List.cons_append, replaceFrom, replaceFrom, apart c text]
          cases starts : (first :: others).isPrefixOf (c :: text) with
          | true =>
              have fits := (List.isPrefixOf_iff_prefix.mp starts).length_le
              simp only [List.length_cons] at fits
              simp only [if_true, List.length_cons, Nat.add_sub_cancel, List.append_assoc]
              rw [ih others.length (by omega)]
          | false =>
              simp only [Bool.false_eq_true, if_false, List.cons_append]
              rw [← List.cons_append, ih 0 (Nat.zero_le _)]

/-! ### Counting -/

theorem countFrom_skip (skipped rest : List Char) :
    countFrom pattern skipped.length (skipped ++ rest) = countFrom pattern 0 rest := by
  induction skipped with
  | nil => rfl
  | cons c skipped ih =>
      rw [List.length_cons, List.cons_append, countFrom]
      exact ih

theorem countFrom_of_isPrefixOf {first : Char} {others : List Char} (rest : List Char) :
    countFrom (first :: others) 0 (first :: others ++ rest) =
      countFrom (first :: others) 0 rest + 1 := by
  have starts : (first :: others).isPrefixOf (first :: (others ++ rest)) = true :=
    List.isPrefixOf_iff_prefix.mpr (List.prefix_append (first :: others) rest)
  rw [List.cons_append, countFrom, if_pos starts]
  exact congrArg (· + 1) (countFrom_skip others rest)

theorem countFrom_of_not_isPrefixOf {c : Char} {rest : List Char}
    (apart : pattern.isPrefixOf (c :: rest) = false) :
    countFrom pattern 0 (c :: rest) = countFrom pattern 0 rest := by
  rw [countFrom, apart]
  rfl

theorem countFrom_of_not_mem {first : Char} {others passed : List Char}
    (absent : first ∉ passed) (rest : List Char) :
    countFrom (first :: others) 0 (passed ++ rest) = countFrom (first :: others) 0 rest := by
  induction passed with
  | nil => rfl
  | cons c passed ih =>
      simp only [List.mem_cons, not_or] at absent
      rw [List.cons_append, countFrom_of_not_isPrefixOf (by simp [List.isPrefixOf, absent.1]),
        ih absent.2]

/-- Counting in a text around the pattern: if no occurrence reaches into that one, the parts before
and behind it are counted alone. -/
theorem countOccurrences_append_pattern {first : Char} {others rest : List Char}
    (apart : ∀ c text, (first :: others).isPrefixOf (c :: (text ++ (first :: others ++ rest))) =
      (first :: others).isPrefixOf (c :: text)) (text : List Char) :
    countOccurrences (first :: others) (text ++ (first :: others ++ rest)) =
      countOccurrences (first :: others) text +
        (countOccurrences (first :: others) rest + 1) := by
  suffices scans : ∀ skipped ≤ text.length,
      countFrom (first :: others) skipped (text ++ (first :: others ++ rest)) =
        countFrom (first :: others) skipped text +
          (countOccurrences (first :: others) rest + 1) from
    scans 0 (Nat.zero_le _)
  induction text with
  | nil =>
      intro skipped within
      cases Nat.le_zero.mp within
      exact (countFrom_of_isPrefixOf rest).trans (Nat.zero_add _).symm
  | cons c text ih =>
      intro skipped within
      cases skipped with
      | succ skipped =>
          rw [List.cons_append, countFrom, countFrom]
          exact ih skipped (Nat.le_of_succ_le_succ within)
      | zero =>
          rw [List.cons_append, countFrom, countFrom, apart c text]
          cases starts : (first :: others).isPrefixOf (c :: text) with
          | true =>
              have fits := (List.isPrefixOf_iff_prefix.mp starts).length_le
              simp only [List.length_cons] at fits
              simp only [if_true, List.length_cons, Nat.add_sub_cancel]
              rw [ih others.length (by omega), Nat.add_right_comm]
          | false => exact ih 0 (Nat.zero_le _)

theorem countOccurrences_eq_zero_iff {text : List Char} (filled : pattern ≠ []) :
    countOccurrences pattern text = 0 ↔ ¬pattern <:+: text := by
  unfold countOccurrences
  induction text with
  | nil => simp [countFrom, filled]
  | cons c rest ih =>
      rw [List.infix_cons_iff, not_or, ← ih, countFrom, ← List.isPrefixOf_iff_prefix]
      cases pattern.isPrefixOf (c :: rest) <;> simp

/-! ### The last occurrence -/

theorem throughLast?_eq_none_iff {text : List Char} (filled : pattern ≠ []) :
    throughLast? pattern text = none ↔ ¬pattern <:+: text := by
  induction text with
  | nil => simp [throughLast?, filled]
  | cons c rest ih =>
      rw [throughLast?, List.infix_cons_iff, not_or, ← ih, ← List.isPrefixOf_iff_prefix]
      cases throughLast? pattern rest <;> simp

/-- The last occurrence ends the text that goes up to it, and none stands behind it. -/
theorem exists_of_throughLast? {text through : List Char} (filled : pattern ≠ [])
    (found : throughLast? pattern text = some through) :
    ∃ before rest, through = before ++ pattern ∧ text = before ++ pattern ++ rest ∧
      ¬pattern <:+: rest := by
  induction text generalizing through with
  | nil => cases found
  | cons c text ih =>
      rw [throughLast?] at found
      cases later : throughLast? pattern text with
      | some shorter =>
          rw [later] at found
          cases found
          obtain ⟨before, rest, rfl, rfl, last⟩ := ih later
          exact ⟨c :: before, rest, rfl, rfl, last⟩
      | none =>
          have absent := (throughLast?_eq_none_iff filled).mp later
          rw [later] at found
          dsimp only at found
          split at found
          · rename_i starts
            cases found
            obtain ⟨rest, split⟩ := List.isPrefixOf_iff_prefix.mp starts
            refine ⟨[], rest, rfl, split.symm, fun inside => absent ?_⟩
            cases pattern with
            | nil => exact absurd rfl filled
            | cons first others =>
                cases split
                exact inside.trans (List.suffix_append others rest).isInfix
          · cases found

/-! ### The end of a text -/

theorem throughLast?_append (whole : throughLast? pattern pattern = some pattern)
    (before : List Char) : throughLast? pattern (before ++ pattern) = some (before ++ pattern) := by
  induction before with
  | nil => exact whole
  | cons c before ih => rw [List.cons_append, throughLast?, ih]

theorem withoutEnd_append (before pattern : List Char) :
    withoutEnd pattern (before ++ pattern) = before := by
  have ends : pattern.isSuffixOf (before ++ pattern) = true :=
    List.isSuffixOf_iff_suffix.mpr (List.suffix_append before pattern)
  rw [withoutEnd, if_pos ends, List.length_append, Nat.add_sub_cancel, List.take_left]

theorem withoutEnd_of_not_isSuffix {text : List Char} (absent : ¬pattern <:+ text) :
    withoutEnd pattern text = text := by
  rw [withoutEnd, if_neg fun ends => absent (List.isSuffixOf_iff_suffix.mp ends)]

end Text

end TemplateFill
