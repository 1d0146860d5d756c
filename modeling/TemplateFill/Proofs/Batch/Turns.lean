import Mathlib.Data.List.Basic

/-!
Lists of which one entry changes.

In a turn of a system one of its parts takes a step and the others stay as they are. So whatever is
read off each part stays, too, except at the part whose turn it is.
-/

namespace TemplateFill

variable {α β : Type} {items : List α} {position other : Nat} {old new item : α}

theorem getElem?_set_cases (found : (items.set position new)[other]? = some item) :
    position = other ∧ item = new ∨ position ≠ other ∧ items[other]? = some item := by
  rw [List.getElem?_set] at found
  split at found
  · rename_i same
    split at found
    · exact Or.inl ⟨same, (Option.some.inj found).symm⟩
    · cases found
  · rename_i different
    exact Or.inr ⟨different, found⟩

theorem map_set_of_eq {look : α → β} (found : items[position]? = some old)
    (same : look new = look old) : (items.set position new).map look = items.map look := by
  obtain ⟨inside, rfl⟩ := List.getElem?_eq_some_iff.mp found
  have mapped : position < (items.map look).length := by rwa [List.length_map]
  rw [List.map_set, same, ← List.getElem_map look (h := mapped), List.set_getElem_self]

/-- What an entry has more than before, the concatenation has more than before. -/
theorem perm_flatMap_set {part : α → List β} {more : List β} (found : items[position]? = some old)
    (grown : part new = part old ++ more) :
    ((items.set position new).flatMap part).Perm (items.flatMap part ++ more) := by
  induction items generalizing position with
  | nil => cases found
  | cons first rest ih =>
      cases position with
      | zero =>
          obtain rfl := Option.some.inj found
          rw [List.set_cons_zero, List.flatMap_cons, List.flatMap_cons, grown, List.append_assoc,
            List.append_assoc]
          exact List.perm_append_comm.append_left _
      | succ position =>
          rw [List.set_cons_succ, List.flatMap_cons, List.flatMap_cons, List.append_assoc]
          exact (ih found).append_left _

end TemplateFill
