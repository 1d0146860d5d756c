import TemplateFill.Proofs.Mapping.Bindings
import TemplateFill.Proofs.Path.Extension
import TemplateFill.Proofs.Path.IndexVectors

/-!
The entries of a list, counted and one by one.

Copies are counted by the path over every entry of a list, and each copy is bound by the path to one
entry. The first selects what is below the list, members of an object included; the second selects
elements of arrays only. The two agree on every list that is not an object.
-/

namespace TemplateFill

/-! ### Steps to one value -/

def Segment.IsStep : Segment → Prop
  | .child (.name _) => True
  | .child (.index _) => True
  | _ => False

theorem Segment.exists_selected {segments : List Segment}
    (steps : ∀ segment ∈ segments, segment.IsStep) (data root : Json) :
    ∃ found : Option Json, Json.view.select root segments [data] = found.toList := by
  induction segments generalizing data with
  | nil => exact ⟨some data, rfl⟩
  | cons segment later ih =>
      have further := ih fun other inside => steps other (List.mem_cons_of_mem _ inside)
      have next : ∃ reached : Option Json, Json.view.step root segment data = reached.toList := by
        have single := steps segment (List.mem_cons_self ..)
        unfold Segment.IsStep at single
        split at single
        · exact ⟨data.member? _, by rw [View.step, View.pick]; rfl⟩
        · exact ⟨data.element? _, by rw [View.step, View.pick]; rfl⟩
        · exact absurd single id
      obtain ⟨reached, same⟩ := next
      rw [View.select_cons, List.flatMap_singleton, same]
      cases reached with
      | none => exact ⟨none, View.select_nil ..⟩
      | some value => exact further value

theorem Query.selectManyIn_of_parse {path : String} {segments : List Segment}
    (read : Segment.parse path = .ok segments) (data : Json) :
    Query.selectManyIn data path false = .ok (Json.view.select data segments [data]) := by
  unfold Query.selectManyIn Query.parse
  rw [read]
  rfl

namespace Binding

/-! ### Paths of entries -/

def everyEntry (list : String) : String := String.ofList (list.toList ++ wildcard)

def oneEntry (list : String) (position : Nat) : String :=
  String.ofList (list.toList ++ entry position)

variable {list : String} {segments : List Segment}

theorem parse_everyEntry (read : Segment.parse list = .ok segments) :
    Segment.parse (everyEntry list) = .ok (segments ++ [.child .wildcard]) :=
  @Segment.parse_append list segments read .every trivial ⟨_, rfl⟩

theorem parse_oneEntry (read : Segment.parse list = .ok segments) {position : Nat}
    (bounded : (position : Int) ≤ Lexer.greatestInteger) :
    Segment.parse (oneEntry list position) = .ok (segments ++ [.child (.index position)]) :=
  @Segment.parse_append list segments read (.entry position) bounded ⟨_, rfl⟩

theorem driver_everyEntry (list : String) :
    driver (everyEntry list).toList = list.toList ++ wildcard := by
  rw [everyEntry, String.toList_ofList, driver, Text.throughLast?_append rfl]
  rfl

theorem bind_everyEntry (list : String) (position : Nat) :
    (ofPath (everyEntry list)).bind (everyEntry list) position = oneEntry list position := by
  have identified : (ofPath (everyEntry list)).listIdentifier.toList = list.toList := by
    unfold ofPath
    rw [driver_everyEntry]
    dsimp only
    rw [String.toList_ofList, Text.withoutEnd_append]
  have bound := bind_append identified [] position
  rw [List.append_nil, Text.replaceAll, Text.replaceFrom, List.append_nil] at bound
  rw [← String.toList_inj, oneEntry, String.toList_ofList]
  exact bound

theorem countPath_everyEntry (none : wildcards (some list) = 0) :
    (ofPath (everyEntry list)).countPath = everyEntry list := by
  unfold ofPath
  rw [driver_everyEntry]
  dsimp only
  have single := (Text.countOccurrences_eq_zero_iff wildcard_ne_nil).mp none
  rw [replaceAll_append_wildcard, Text.replaceAll_of_not_isInfix single, Text.withoutEnd_append]
  rfl

/-! ### Counted and selected entries -/

/-- The path over every entry of a list can be followed, and it counts the copies. The path to one
entry, to which a copy is bound, selects the entry that is counted at its position, unless the list
is an object: that has no entries one by one. -/
theorem oneEntry_selects (read : Segment.parse list = .ok segments)
    (steps : ∀ segment ∈ segments, segment.IsStep) (data : Json) :
    ∃ nodes, Query.selectManyIn data (everyEntry list) false = .ok nodes ∧
      (wildcards (some list) = 0 → (ofPath (everyEntry list)).countPath = everyEntry list) ∧
      ∀ position : Nat, (position : Int) ≤ Lexer.greatestInteger →
        (ofPath (everyEntry list)).bind (everyEntry list) position = oneEntry list position ∧
        ((∃ members, Query.selectManyIn data list false = .ok [.object members]) →
          Query.selectManyIn data (oneEntry list position) false = .ok []) ∧
        ((¬∃ members, Query.selectManyIn data list false = .ok [.object members]) →
          Query.selectManyIn data (oneEntry list position) false =
            .ok nodes[position]?.toList) := by
  obtain ⟨found, selected⟩ := Segment.exists_selected steps data data
  refine ⟨_, Query.selectManyIn_of_parse (parse_everyEntry read) data, countPath_everyEntry,
    fun position bounded => ?_⟩
  rw [Query.selectManyIn_of_parse (parse_oneEntry read bounded), Query.selectManyIn_of_parse read,
    View.select_append, View.select_append, selected]
  refine ⟨bind_everyEntry list position, ?_, ?_⟩
  · rintro ⟨members, isObject⟩
    rw [Except.ok.inj isObject, View.select_cons, List.flatMap_singleton, View.step, View.pick]
    rfl
  · intro noObject
    cases found with
    | none => rw [Option.toList_none, View.select_nil, View.select_nil]; rfl
    | some value =>
        rw [Option.toList_some, View.select_cons, View.select_cons, List.flatMap_singleton,
          List.flatMap_singleton, View.step, View.step, View.pick, View.pick]
        cases value with
        | scalar value => rfl
        | array elements => rfl
        | object members => exact absurd ⟨members, rfl⟩ noObject

theorem everyEntry_path (steps : List Step) :
    everyEntry (Step.path steps) = Step.path (steps ++ [.every]) := by
  rw [everyEntry, Step.toList_path, Step.path, Step.chars_append]
  simp [Step.text, wildcard]

theorem oneEntry_path (steps : List Step) (position : Nat) :
    oneEntry (Step.path steps) position = Step.path (steps ++ [.entry position]) := by
  rw [oneEntry, Step.toList_path, Step.path, Step.chars_append]
  simp [Step.text, entry]

/-- A list below the first entry of another. -/
theorem oneEntry_selects_second :
    let list := "$.a[0].b"
    let segments : List Segment := [.child (.name "a"), .child (.index 0), .child (.name "b")]
    let data : Json := .object [("a", .array [.object [("b", .array [.integer 1, .integer 2])]])]
    Segment.parse list = .ok segments ∧ (∀ segment ∈ segments, segment.IsStep) ∧
      Query.selectManyIn data (everyEntry list) false = .ok [.integer 1, .integer 2] ∧
      Query.selectManyIn data (oneEntry list 1) false = .ok [.integer 2] := by
  intro list segments data
  let path : List Step := [.name "a", .entry 0, .name "b"]
  have plain : ∀ step ∈ path, step.Plain := by
    simp only [path, List.forall_mem_cons]
    have first : PlainName "a" := PlainName.letter (by decide)
    have second : PlainName "b" := PlainName.letter (by decide)
    exact ⟨first, show (0 : Int) ≤ Lexer.greatestInteger by decide, second, nofun⟩
  have same : list = Step.path path := by decide +kernel
  have read : Segment.parse list = .ok segments := by
    rw [same]
    exact Step.parse_path plain
  have steps : ∀ segment ∈ segments, segment.IsStep := by simp [segments, Segment.IsStep]
  have elements : Query.selectManyIn data list false = .ok [.array [.integer 1, .integer 2]] := by
    rw [same, Step.selectManyIn_path plain]
    rfl
  have counted : Query.selectManyIn data (everyEntry list) false =
      .ok [.integer 1, .integer 2] := by
    rw [same, everyEntry_path, Step.selectManyIn_path]
    · rfl
    · exact List.forall_mem_append.mpr ⟨plain, by simp [Step.Plain]⟩
  obtain ⟨nodes, known, _, each⟩ := oneEntry_selects read steps data
  have pinned := (each 1 (by decide)).2.2 (by rw [elements]; rintro ⟨members, ⟨⟩⟩)
  rw [counted] at known
  cases known
  exact ⟨read, steps, counted, pinned⟩

/-- The members of an object are counted, but the path to one entry selects none of them. -/
theorem oneEntry_object_selects_none :
    let list := "$.a"
    let data : Json := .object [("a", .object [("x", .integer 1), ("y", .integer 2)])]
    Segment.parse list = .ok [.child (.name "a")] ∧
      Query.selectManyIn data (everyEntry list) false = .ok [.integer 1, .integer 2] ∧
      Query.selectManyIn data (oneEntry list 0) false = .ok [] := by
  intro list data
  have named : PlainName "a" := PlainName.letter (by decide)
  have same : list = Step.path [.name "a"] := by decide +kernel
  rw [same, everyEntry_path, oneEntry_path, Step.parse_path (by simp [named, Step.Plain]),
    Step.selectManyIn_path (by simp [named, Step.Plain]),
    Step.selectManyIn_path (by simp [named, Step.Plain, Lexer.greatestInteger])]
  exact ⟨rfl, rfl, rfl⟩

end Binding

end TemplateFill
