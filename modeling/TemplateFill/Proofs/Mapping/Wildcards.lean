import TemplateFill.Proofs.Mapping.Bindings
import TemplateFill.Proofs.Mapping.ListEntries
import TemplateFill.Proofs.Path.Equality

/-!
Which `[*]` of a path is counted, and which one is bound.

A path is cut at its last `[*]`; the list before it is counted with its own `[*]` at the first
entry. Binding replaces the text of the list with its `[*]` wherever it occurs. The results are what
the cut suggests, but for two kinds of paths: one without `[*]` that ends at a first entry is counted
one step too early, and a list without a root mark may occur again behind itself.
-/

namespace TemplateFill

namespace Binding

/-! ### The list of a path -/

/-- The list of a path with a `[*]` is what stands before the last one, and its entries are
counted. -/
theorem ofPath_of_isInfix {path : String} (listed : wildcard <:+: path.toList) :
    ∃ list rest, path.toList = list ++ wildcard ++ rest ∧ ¬wildcard <:+: rest ∧
      (ofPath path).listIdentifier.toList = list ∧
      (ofPath path).countPath.toList = Text.replaceAll wildcard firstEntry list ++ wildcard := by
  cases found : Text.throughLast? wildcard path.toList with
  | none => exact absurd listed ((Text.throughLast?_eq_none_iff wildcard_ne_nil).mp found)
  | some through =>
      obtain ⟨list, rest, rfl, split, last⟩ := Text.exists_of_throughLast? wildcard_ne_nil found
      have driven : driver path.toList = list ++ wildcard := by
        rw [driver, found, Option.getD_some]
      refine ⟨list, rest, split, last, ?_, ?_⟩
      · rw [ofPath, driven, String.toList_ofList, Text.withoutEnd_append]
      · rw [ofPath, driven, String.toList_ofList, replaceAll_append_wildcard,
          Text.withoutEnd_append]

/-- A path without `[*]` is its own list, but a first entry at its end is not counted in. -/
theorem ofPath_of_not_isInfix {path : String} (single : ¬wildcard <:+: path.toList) :
    (ofPath path).listIdentifier = path ∧
      (ofPath path).countPath.toList = Text.withoutEnd firstEntry path.toList ++ wildcard := by
  have driven : driver path.toList = path.toList := by
    rw [driver, (Text.throughLast?_eq_none_iff wildcard_ne_nil).mpr single, Option.getD_none]
  have whole : Text.withoutEnd wildcard path.toList = path.toList :=
    Text.withoutEnd_of_not_isSuffix fun ends => single ends.isInfix
  constructor
  · rw [ofPath, driven, whole, String.ofList_toList]
  · rw [ofPath, driven, String.toList_ofList, Text.replaceAll_of_not_isInfix single]

/-- The list of a path ends before its last `[*]`, or is the whole path. What is counted is the list
with every `[*]` at the first entry, followed by `[*]`, with one exception: from a path without
`[*]` that ends with `[0]` this end is taken off, so that the entries of the list around it are
counted. -/
theorem countPath_eq_iff (path : String) :
    let list := (ofPath path).listIdentifier.toList
    let counted := (ofPath path).countPath.toList
    ((∃ rest, path.toList = list ++ wildcard ++ rest ∧ ¬wildcard <:+: rest) ∨
        ¬wildcard <:+: path.toList ∧ list = path.toList) ∧
      (counted = Text.replaceAll wildcard firstEntry list ++ wildcard ↔
        wildcard <:+: path.toList ∨ ¬firstEntry <:+ path.toList) ∧
      ∀ before, ¬wildcard <:+: path.toList → path.toList = before ++ firstEntry →
        counted = before ++ wildcard := by
  intro list counted
  by_cases listed : wildcard <:+: path.toList
  · obtain ⟨before, rest, split, last, identified, counts⟩ := ofPath_of_isInfix listed
    have same : list = before := identified
    refine ⟨Or.inl ⟨rest, same ▸ split, last⟩, ?_, fun _ absent => absurd listed absent⟩
    exact iff_of_true (same ▸ counts) (Or.inl listed)
  · obtain ⟨identified, counts⟩ := ofPath_of_not_isInfix listed
    have same : list = path.toList := congrArg String.toList identified
    have shorter : ∀ before, path.toList = before ++ firstEntry → counted = before ++ wildcard := by
      intro before split
      rw [show counted = _ from counts, split, Text.withoutEnd_append]
    refine ⟨Or.inr ⟨listed, same⟩, ?_, fun before _ => shorter before⟩
    rw [same, Text.replaceAll_of_not_isInfix listed, or_iff_right listed]
    constructor
    · rintro equal ⟨before, split⟩
      rw [shorter before split.symm, ← split, List.append_cancel_right_eq] at equal
      simp [firstEntry] at equal
    · intro other
      rw [show counted = _ from counts, Text.withoutEnd_of_not_isSuffix other]

/-- For the first row of a matrix the rows are counted, not the entries of the row. -/
theorem ofPath_first_row :
    let row : Json := .array [.integer 1, .integer 2, .integer 3]
    let data : Json := .object [("m", .array [row, .array [.integer 4]])]
    let binding := ofPath "$.m[0]"
    (binding.listIdentifier = "$.m[0]" ∧ binding.countPath.toList ≠
        Text.replaceAll wildcard firstEntry binding.listIdentifier.toList ++ wildcard) ∧
      Query.selectManyIn data binding.countPath false = .ok [row, .array [.integer 4]] ∧
      Query.selectManyIn data (everyEntry "$.m[0]") false =
        .ok [.integer 1, .integer 2, .integer 3] := by
  intro row data binding
  have named : PlainName "m" := PlainName.letter (by decide)
  have rows : binding.countPath = Step.path [.name "m", .every] := by decide +kernel
  have entries : everyEntry "$.m[0]" = Step.path [.name "m", .entry 0, .every] := by
    decide +kernel
  refine ⟨by decide +kernel, ?_⟩
  rw [rows, entries, Step.selectManyIn_path (by simp [named, Step.Plain]),
    Step.selectManyIn_path (by simp [named, Step.Plain, Lexer.greatestInteger])]
  exact ⟨rfl, rfl⟩

/-! ### Binding behind the list -/

/-- Only an occurrence of the list with its `[*]` is changed by binding. -/
theorem replaceAll_entry_eq_self_iff (list rest : List Char) (position : Nat) :
    Text.replaceAll (list ++ wildcard) (list ++ entry position) rest = rest ↔
      ¬(list ++ wildcard) <:+: rest := by
  obtain ⟨digit, digits, split⟩ := List.exists_cons_of_ne_nil (@Nat.toDigits_ne_nil position 10)
  have isDigit : digit.isDigit = true :=
    Nat.isDigit_of_mem_toDigits (b := 10) (n := position) (by decide) (by decide)
      (by rw [split]; exact List.mem_cons_self ..)
  have different : '*' ≠ digit := by
    rintro rfl
    exact absurd isDigit (by decide)
  have pattern : list ++ wildcard = (list ++ ['[']) ++ '*' :: [']'] := by
    rw [List.append_assoc]
    rfl
  have written : list ++ entry position = (list ++ ['[']) ++ digit :: (digits ++ [']']) := by
    rw [entry, split, List.append_assoc]
    rfl
  rw [pattern, written]
  exact Text.replaceAll_eq_self_iff different

theorem root_mem_listIdentifier {path : String}
    (rooted : (path.toList.dropWhile Lexer.isSpace).head? = some '$') :
    '$' ∈ (ofPath path).listIdentifier.toList := by
  by_cases listed : wildcard <:+: path.toList
  · obtain ⟨list, rest, split, _, identified, _⟩ := ofPath_of_isInfix listed
    rw [identified]
    rw [split, List.append_assoc, List.dropWhile_append] at rooted
    split at rooted
    · cases rooted
    · rename_i solid
      cases stripped : list.dropWhile Lexer.isSpace with
      | nil => simp [stripped] at solid
      | cons first others =>
          rw [stripped] at rooted
          cases rooted
          exact (List.dropWhile_sublist Lexer.isSpace).subset (by simp [stripped])
  · obtain ⟨identified, _⟩ := ofPath_of_not_isInfix listed
    rw [identified]
    exact (List.dropWhile_sublist Lexer.isSpace).subset (List.mem_of_head? rooted)

end Binding

namespace Step

/-- Where `[*]` stands in the text of steps, there is a step to every entry. -/
theorem exists_split_of_chars {steps : List Step} (named : ∀ step ∈ steps, step.Named)
    {before after : List Char} (split : chars steps = before ++ (Binding.wildcard ++ after)) :
    ∃ earlier later, steps = earlier ++ .every :: later ∧ chars earlier = before := by
  induction steps generalizing before with
  | nil => simp [Binding.wildcard] at split
  | cons step steps ih =>
      have further := @ih fun other inside => named other (List.mem_cons_of_mem _ inside)
      rw [chars_cons] at split
      rcases List.append_eq_append_iff.mp split with ⟨behind, rfl, rest⟩ | ⟨part, text, rest⟩
      · obtain ⟨earlier, later, rfl, same⟩ := further rest
        exact ⟨step :: earlier, later, rfl, by rw [chars_cons, same]⟩
      · cases before with
        | nil =>
            by_cases single : step = .every
            · exact ⟨[], steps, by rw [single]; rfl, rfl⟩
            · have apart := not_isPrefixOf_wildcard single (chars steps)
              rw [text, List.nil_append, ← rest] at apart
              simp [Binding.wildcard] at apart
        | cons first others =>
            cases part with
            | nil =>
                obtain ⟨earlier, later, rfl, same⟩ := @further [] rest.symm
                exact ⟨step :: earlier, later, rfl, by rw [chars_cons, same, text]; simp⟩
            | cons mark part =>
                -- an occurrence that starts inside a step would show its bracket there
                have same : mark = '[' := (List.cons.inj rest).1.symm
                have inside : '[' ∈ step.text.tail := by simp [text, same]
                have here := named step (List.mem_cons_self ..)
                exact absurd rfl (not_mark_of_mem_tail here inside).2.1

/-- A list with its `[*]` occurs in the text of steps where a step to every entry follows a text
that ends with the list. -/
theorem isInfix_chars_iff {steps : List Step} (named : ∀ step ∈ steps, step.Named)
    (list : List Char) :
    (list ++ Binding.wildcard) <:+: chars steps ↔
      ∃ earlier later, steps = earlier ++ .every :: later ∧ list <:+ chars earlier := by
  constructor
  · rintro ⟨before, after, split⟩
    have whole : chars steps = (before ++ list) ++ (Binding.wildcard ++ after) := by
      rw [← split]
      simp only [List.append_assoc]
    obtain ⟨earlier, later, same, text⟩ := exists_split_of_chars named whole
    exact ⟨earlier, later, same, text ▸ List.suffix_append before list⟩
  · rintro ⟨earlier, later, rfl, before, split⟩
    refine ⟨before, chars later, ?_⟩
    rw [chars_append, chars_cons, ← split]
    simp [text, Binding.wildcard]

end Step

namespace Binding

/-- Binding a path behind the list's own `[*]` leaves the steps there as they are, exactly if the
text of the list does not end again before a `[*]` of theirs. For a path with a root mark it never
does. -/
theorem bind_continuation (path : String) {rest : List Step} (named : ∀ step ∈ rest, step.Named)
    (position : Nat) :
    let list := (ofPath path).listIdentifier.toList
    let whole := String.ofList (list ++ wildcard ++ Step.chars rest)
    let pinned := list ++ entry position ++ Step.chars rest
    (((ofPath path).bind whole position).toList = pinned ↔
        ∀ earlier later, rest = earlier ++ .every :: later → ¬list <:+ Step.chars earlier) ∧
      ((path.toList.dropWhile Lexer.isSpace).head? = some '$' →
        ((ofPath path).bind whole position).toList = pinned) := by
  intro list whole pinned
  have bound : ((ofPath path).bind whole position).toList = pinned ↔
      ¬(list ++ wildcard) <:+: Step.chars rest := by
    rw [← replaceAll_entry_eq_self_iff list _ position]
    rw [show ((ofPath path).bind whole position).toList = _ from bind_append rfl _ position,
      List.append_cancel_left_eq]
  constructor
  · rw [bound, Step.isInfix_chars_iff named]
    simp only [not_exists, not_and]
  · intro rooted
    rw [bound]
    intro inside
    have root : '$' ∈ list ++ wildcard := List.mem_append_left _ (root_mem_listIdentifier rooted)
    exact Step.not_mem_chars named (inside.subset root)

/-- Lists of the same names below the list stay as they are. -/
theorem bind_continuation_nested :
    let rest : List Step := [.name "a", .every, .name "b", .every]
    (∀ step ∈ rest, step.Named) ∧
      (ofPath "$.a[*].b[*]").bind "$.a[*].b[*].a[*].b[*]" 7 = "$.a[*].b[7].a[*].b[*]" := by
  intro rest
  have named : ∀ step ∈ rest, step.Named := by
    have first : NameText "a" := (PlainName.letter (by decide)).nameText
    have second : NameText "b" := (PlainName.letter (by decide)).nameText
    simp [rest, Step.Named, first, second]
  have bound := (bind_continuation "$.a[*].b[*]" named 7).2 (by decide +kernel)
  have listed : (ofPath "$.a[*].b[*]").listIdentifier.toList = "$.a[*].b".toList := by
    decide +kernel
  rw [listed] at bound
  exact ⟨named, String.toList_inj.mp bound⟩

/-- A list without a root mark is bound a second time in the path of an inner list of its name. -/
theorem bind_rootless_twice :
    Segment.parse "items[*]" = .ok [.child (.name "items"), .child .wildcard] ∧
      (ofPath "items[*]").listIdentifier = "items" ∧
      (ofPath "items[*]").bind "items[*].items[*]" 1 = "items[1].items[1]" ∧
      (ofPath "items[*]").bind "items[*].items[*]" 1 ≠ "items[1].items[*]" := by
  decide +kernel

end Binding

end TemplateFill
