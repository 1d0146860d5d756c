import TemplateFill.Mapping.Binding
import TemplateFill.Proofs.Path.PlainPath
import TemplateFill.Proofs.Text.Occurrences

/-!
Binding plain paths.

On the texts of plain steps, counting and replacing `[*]` is counting and replacing steps to every entry,
and a list is a prefix of steps. Names and numbers hold no mark that could be taken for another.
-/

namespace TemplateFill

/-! ### Texts of lists -/

namespace Binding

theorem isPrefixOf_append_wildcard (rest : List Char) (c : Char) (text : List Char) :
    wildcard.isPrefixOf (c :: (text ++ (wildcard ++ rest))) = wildcard.isPrefixOf (c :: text) := by
  cases text with
  | nil => simp [wildcard, List.isPrefixOf]
  | cons second text =>
      cases text with
      | nil => simp [wildcard, List.isPrefixOf]
      | cons third text => simp [wildcard, List.isPrefixOf]

theorem wildcard_ne_nil : wildcard ≠ [] := nofun

theorem replaceAll_append_wildcard (list : List Char) :
    Text.replaceAll wildcard firstEntry (list ++ wildcard) =
      Text.replaceAll wildcard firstEntry list ++ firstEntry := by
  have replaced := @Text.replaceAll_append_pattern firstEntry _ _ []
    (isPrefixOf_append_wildcard []) list
  rwa [List.append_nil, Text.replaceAll, Text.replaceAll, Text.replaceAll, Text.replaceFrom,
    List.append_nil] at replaced

theorem countOccurrences_append_wildcard (list rest : List Char) :
    Text.countOccurrences wildcard (list ++ (wildcard ++ rest)) =
      Text.countOccurrences wildcard list + (Text.countOccurrences wildcard rest + 1) :=
  Text.countOccurrences_append_pattern (isPrefixOf_append_wildcard rest) list

/-- Binding a path that goes on behind the `[*]` of the list: what is behind is bound as well,
wherever the text of the list with its `[*]` occurs again. -/
theorem bind_append {binding : Binding} {list : List Char}
    (identified : binding.listIdentifier.toList = list) (rest : List Char) (position : Nat) :
    (binding.bind (String.ofList (list ++ wildcard ++ rest)) position).toList =
      list ++ entry position ++
        Text.replaceAll (list ++ wildcard) (list ++ entry position) rest := by
  obtain ⟨first, others, split⟩ := List.exists_cons_of_ne_nil
    (show list ++ wildcard ≠ [] from List.append_ne_nil_of_right_ne_nil _ wildcard_ne_nil)
  unfold bind
  dsimp only
  rw [identified, String.toList_ofList, String.toList_ofList, split, Text.replaceAll,
    Text.replaceFrom_of_isPrefixOf]
  rfl

end Binding

/-! ### Steps -/

namespace Step

variable {step : Step} {steps : List Step}

theorem not_isPrefixOf_wildcard (single : step ≠ .every) (rest : List Char) :
    Binding.wildcard.isPrefixOf (step.text ++ rest) = false := by
  cases step with
  | name key => rfl
  | entry position =>
      obtain ⟨first, others, split⟩ := List.exists_cons_of_ne_nil (@Nat.toDigits_ne_nil position 10)
      have digit : first.isDigit = true :=
        Nat.isDigit_of_mem_toDigits (b := 10) (n := position) (by decide) (by decide)
          (by rw [split]; exact List.mem_cons_self ..)
      have other : ('*' == first) = false := by
        rw [beq_eq_false_iff_ne]
        rintro rfl
        exact absurd digit (by decide)
      simp [text, split, Binding.wildcard, List.isPrefixOf, other]
  | every => exact absurd rfl single

theorem text_eq_cons (step : Step) : ∃ c, step.text = c :: step.text.tail := by
  cases step <;> exact ⟨_, rfl⟩

theorem replaceFrom_text (plain : step.Plain) (single : step ≠ .every)
    (replacement rest : List Char) :
    Text.replaceFrom Binding.wildcard replacement 0 (step.text ++ rest) =
      step.text ++ Text.replaceFrom Binding.wildcard replacement 0 rest := by
  have apart := not_isPrefixOf_wildcard single rest
  have absent : '[' ∉ step.text.tail := fun inside => (not_mark_of_mem_tail plain.named inside).2.1 rfl
  obtain ⟨c, split⟩ := step.text_eq_cons
  generalize step.text.tail = others at *
  rw [split, List.cons_append] at apart ⊢
  rw [Text.replaceFrom_of_not_isPrefixOf apart, Binding.wildcard,
    Text.replaceFrom_of_not_mem absent, List.cons_append]

theorem countFrom_text (plain : step.Plain) (single : step ≠ .every) (rest : List Char) :
    Text.countFrom Binding.wildcard 0 (step.text ++ rest) =
      Text.countFrom Binding.wildcard 0 rest := by
  have apart := not_isPrefixOf_wildcard single rest
  have absent : '[' ∉ step.text.tail := fun inside => (not_mark_of_mem_tail plain.named inside).2.1 rfl
  obtain ⟨c, split⟩ := step.text_eq_cons
  generalize step.text.tail = others at *
  rw [split, List.cons_append] at apart ⊢
  rw [Text.countFrom_of_not_isPrefixOf apart, Binding.wildcard,
    Text.countFrom_of_not_mem absent]

theorem replaceFrom_chars (plain : ∀ step ∈ steps, step.Plain) (single : .every ∉ steps)
    (replacement rest : List Char) :
    Text.replaceFrom Binding.wildcard replacement 0 (chars steps ++ rest) =
      chars steps ++ Text.replaceFrom Binding.wildcard replacement 0 rest := by
  induction steps with
  | nil => rfl
  | cons step later ih =>
      simp only [List.mem_cons, not_or] at single
      rw [chars_cons, List.append_assoc,
        replaceFrom_text (plain step (List.mem_cons_self ..)) (Ne.symm single.1),
        ih (fun other inside => plain other (List.mem_cons_of_mem _ inside)) single.2,
        List.append_assoc]

theorem countFrom_chars (plain : ∀ step ∈ steps, step.Plain) :
    Text.countFrom Binding.wildcard 0 (chars steps) = steps.count .every := by
  induction steps with
  | nil => rfl
  | cons step later ih =>
      have behind := ih fun other inside => plain other (List.mem_cons_of_mem _ inside)
      rw [chars_cons]
      by_cases single : step = .every
      · subst single
        rw [List.count_cons_self, ← behind]
        exact Text.countFrom_of_isPrefixOf (chars later)
      · rw [countFrom_text (plain step (List.mem_cons_self ..)) single, behind,
          List.count_cons_of_ne single]

/-- A path has as many steps to every entry as its text shows. -/
theorem wildcards_path (plain : ∀ step ∈ steps, step.Plain) :
    Binding.wildcards (some (path steps)) = steps.count .every := by
  rw [Binding.wildcards, Text.countOccurrences, toList_path, ← countFrom_chars plain,
    Text.countFrom_of_not_isPrefixOf rfl]

/-! ### The list of a path -/

/-- The list of a path with one step to every entry is what stands before it, and its entries are
those that are counted. -/
theorem ofPath_path (plain : ∀ step ∈ steps, step.Plain) (single : .every ∉ steps) :
    Binding.ofPath (path (steps ++ [.every])) =
      { countPath := path (steps ++ [.every]), listIdentifier := path steps } := by
  have whole : '$' :: chars (steps ++ [.every]) = ('$' :: chars steps) ++ Binding.wildcard := by
    simp [text, Binding.wildcard]
  have driven : Binding.driver ('$' :: chars (steps ++ [.every])) =
      ('$' :: chars steps) ++ Binding.wildcard := by
    rw [Binding.driver, whole, Text.throughLast?_append rfl]
    rfl
  have pinned : Text.replaceAll Binding.wildcard Binding.firstEntry
      (('$' :: chars steps) ++ Binding.wildcard) =
        ('$' :: chars steps) ++ Binding.firstEntry := by
    unfold Text.replaceAll
    rw [List.cons_append, Text.replaceFrom_of_not_isPrefixOf rfl, replaceFrom_chars plain single]
    rfl
  unfold Binding.ofPath
  rw [toList_path, driven]
  dsimp only
  rw [pinned, Text.withoutEnd_append, Text.withoutEnd_append, ← whole]
  rfl

def binding (list : List Step) : Binding :=
  { countPath := path (list ++ [.every]), listIdentifier := path list }

theorem appliesTo_path (list later : List Step) :
    (binding list).appliesTo (path (list ++ later)) = true := by
  unfold Binding.appliesTo binding
  rw [toList_path, toList_path, chars_append]
  exact List.isPrefixOf_iff_prefix.mpr (List.prefix_append ('$' :: chars list) (chars later))

theorem not_mem_chars (named : ∀ step ∈ steps, step.Named) : '$' ∉ chars steps := by
  intro inside
  obtain ⟨step, known, deeper⟩ := List.mem_flatMap.mp inside
  obtain ⟨c, split⟩ := step.text_eq_cons
  rw [split] at deeper
  rcases List.mem_cons.mp deeper with rfl | later
  · cases step <;> cases split
  · exact (not_mark_of_mem_tail (named step known) later).1 rfl

theorem bind_path (list : List Step) {later : List Step} (plain : ∀ step ∈ later, step.Plain)
    (position : Nat) :
    (binding list).bind (path (list ++ .every :: later)) position =
      path (list ++ .entry position :: later) := by
  have before : path (list ++ .every :: later) =
      String.ofList ('$' :: chars list ++ Binding.wildcard ++ chars later) := by
    simp [path, text, Binding.wildcard]
  have after : '$' :: chars (list ++ .entry position :: later) =
      '$' :: chars list ++ Binding.entry position ++ chars later := by
    simp [text, Binding.entry]
  have single : ¬('$' :: chars list ++ Binding.wildcard) <:+: chars later := fun inside =>
    not_mem_chars (fun step known => (plain step known).named) (inside.subset (by simp))
  have bound := @Binding.bind_append (binding list) _ (toList_path list) (chars later) position
  rw [Text.replaceAll_of_not_isInfix single] at bound
  rw [before, path, after, ← bound, String.ofList_toList]

end Step

end TemplateFill
