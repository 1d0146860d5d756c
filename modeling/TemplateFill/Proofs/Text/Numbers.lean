/-!
Numbers behind marks.

A decimal number holds digits only. So a text that ends in a mark and a number tells both what
stands in front of the mark and the number, if the mark is no digit.
-/

namespace TemplateFill.Text

/-- What stands behind the last mark of a text can be told from what stands in front of it. -/
theorem eq_of_append_mark {α : Type} {left right front back : List α} {mark : α}
    (outside : mark ∉ left) (outsideToo : mark ∉ right)
    (same : front ++ mark :: left = back ++ mark :: right) : front = back ∧ left = right := by
  rcases List.append_eq_append_iff.mp same with ⟨between, rfl, split⟩ | ⟨between, rfl, split⟩
  · cases between with
    | nil => exact ⟨(List.append_nil _).symm, (List.cons.inj split).2⟩
    | cons first rest =>
        rw [List.cons_append, List.cons.injEq] at split
        rw [split.2] at outside
        exact absurd List.mem_append_cons_self outside
  · cases between with
    | nil => exact ⟨List.append_nil _, (List.cons.inj split).2.symm⟩
    | cons first rest =>
        rw [List.cons_append, List.cons.injEq] at split
        rw [split.2] at outsideToo
        exact absurd List.mem_append_cons_self outsideToo

/-- A text with a number behind a mark tells the text and the number. -/
theorem numbered_inj {front back : List Char} {mark : Char} {number count : Nat}
    (noDigit : mark.isDigit = false)
    (same : front ++ mark :: Nat.toDigits 10 number = back ++ mark :: Nat.toDigits 10 count) :
    front = back ∧ number = count := by
  have noMark (value : Nat) : mark ∉ Nat.toDigits 10 value := by
    intro inside
    have isDigit := Nat.isDigit_of_mem_toDigits (by decide) (by decide) inside
    rw [noDigit] at isDigit
    cases isDigit
  obtain ⟨texts, digits⟩ := eq_of_append_mark (noMark number) (noMark count) same
  have values := congrArg (fun digits => Nat.ofDigitChars 10 digits 0) digits
  exact ⟨texts, by simpa using values⟩

end TemplateFill.Text
