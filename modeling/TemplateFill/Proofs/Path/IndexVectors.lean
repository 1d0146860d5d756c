import Mathlib.Data.List.Basic
import TemplateFill.Proofs.Path.PlainPath
import TemplateFill.Proofs.Path.Selection

/-!
Nested lists along member names, and the entries that they have.

A vector of positions leads through one list after the other. The vectors that a value has are listed in
lexicographic order, and what the path over every entry selects is, in order, what the paths of the single
vectors select.
-/

namespace TemplateFill

namespace Step

/-! ### What steps reach -/

def reach : Step → Json → List Json
  | .name key, value => (value.member? key).toList
  | .entry position, value => (value.element? position).toList
  | .every, value => value.children

def follow : List Step → Json → List Json
  | [], value => [value]
  | step :: later, value => (step.reach value).flatMap (follow later)

theorem follow_append (first later : List Step) (value : Json) :
    follow (first ++ later) value = (follow first value).flatMap (follow later) := by
  induction first generalizing value with
  | nil => simp [follow]
  | cons step rest ih =>
      rw [List.cons_append, follow, follow, List.flatMap_assoc]
      exact List.flatMap_congr fun next _ => ih next

theorem select_steps (steps : List Step) (root : Json) (nodes : List Json) :
    Json.view.select root (steps.map segment) nodes = nodes.flatMap (follow steps) := by
  induction steps generalizing nodes with
  | nil => simp [View.select, follow]
  | cons step later ih =>
      have reached : ∀ node, Json.view.step root step.segment node = step.reach node := by
        intro node
        cases step with
        | name key => rw [segment, View.step, View.pick]; rfl
        | entry position => rw [segment, View.step, View.pick]; rfl
        | every => rw [segment, View.step, View.pick]; rfl
      rw [List.map_cons, View.select_cons, ih, List.flatMap_assoc]
      simp only [reached]
      rfl

theorem selectManyIn_path {steps : List Step} (plain : ∀ step ∈ steps, step.Plain) (data : Json) :
    Query.selectManyIn data (path steps) false = .ok (follow steps data) := by
  unfold Query.selectManyIn Query.parse
  rw [parse_path plain]
  change (Query.mk (path steps) (steps.map segment)).selectMany Json.view data false = _
  unfold Query.selectMany Query.select
  rw [select_steps, List.flatMap_singleton]
  rfl

/-! ### Paths of lists -/

def everyEntry : List String → List Step
  | [] => []
  | key :: later => .name key :: .every :: everyEntry later

def entries : List String → List Nat → List Step
  | key :: later, position :: vector => .name key :: .entry position :: entries later vector
  | _, _ => []

theorem everyEntry_plain {keys : List String} (plain : ∀ key ∈ keys, PlainName key) :
    ∀ step ∈ everyEntry keys, step.Plain := by
  induction keys with
  | nil => exact nofun
  | cons key keys ih =>
      have later := ih fun other inside => plain other (List.mem_cons_of_mem _ inside)
      intro step inside
      rcases List.mem_cons.mp inside with rfl | inside
      · exact plain key (List.mem_cons_self ..)
      · rcases List.mem_cons.mp inside with rfl | inside
        · trivial
        · exact later step inside

end Step

namespace Json

/-! ### Vectors of positions -/

def entryAt? : List String → List Nat → Json → Option Json
  | [], [], value => some value
  | name :: names, position :: vector, value =>
      ((value.member? name).bind (element? position)).bind (entryAt? names vector)
  | _, _, _ => none

/-- The vectors of positions that lead to values, each list in order. -/
def indexVectors : List String → Json → List (List Nat)
  | [], _ => [[]]
  | name :: names, value =>
      match value.member? name with
      | some (.array elements) =>
          elements.zipIdx.flatMap fun entry =>
            (indexVectors names entry.1).map (entry.2 :: ·)
      | _ => []

theorem mem_indexVectors_iff {names : List String} {vector : List Nat} {value : Json} :
    vector ∈ indexVectors names value ↔ (entryAt? names vector value).isSome = true := by
  induction names generalizing vector value with
  | nil => cases vector <;> simp [indexVectors, entryAt?]
  | cons name names ih =>
      rw [indexVectors]
      cases vector with
      | nil =>
          split <;> simp [entryAt?]
      | cons position rest =>
          rw [entryAt?]
          cases value.member? name with
          | none => simp
          | some list =>
              cases list with
              | scalar value => simp [element?]
              | object members => simp [element?]
              | array elements =>
                  simp only [List.mem_flatMap, List.mem_map, List.cons.injEq, Option.bind_some, element?]
                  constructor
                  · rintro ⟨entry, inside, other, listed, rfl, rfl⟩
                    have found := List.mk_mem_zipIdx_iff_getElem?.mp inside
                    rw [found]
                    exact ih.mp listed
                  · intro present
                    cases found : elements[position]? with
                    | none => rw [found] at present; cases present
                    | some element =>
                        rw [found] at present
                        exact ⟨(element, position), List.mk_mem_zipIdx_iff_getElem?.mpr found, rest,
                          ih.mpr present, rfl, rfl⟩

/-- The vectors are listed in lexicographic order, each once. -/
theorem pairwise_indexVectors (names : List String) (value : Json) :
    (indexVectors names value).Pairwise (List.Lex (· < ·)) := by
  induction names generalizing value with
  | nil => exact List.pairwise_singleton ..
  | cons name names ih =>
      rw [indexVectors]
      split
      · rename_i elements _
        rw [List.pairwise_flatMap]
        constructor
        · intro entry _
          rw [List.pairwise_map]
          exact (ih entry.1).imp .cons
        · have sorted : (elements.zipIdx.map Prod.snd).Pairwise (· < ·) := by
            rw [List.zipIdx_map_snd]
            exact List.pairwise_lt_range'
          rw [List.pairwise_map] at sorted
          refine sorted.imp fun {left right} less => ?_
          intro first firstIn second secondIn
          obtain ⟨firstRest, _, rfl⟩ := List.mem_map.mp firstIn
          obtain ⟨secondRest, _, rfl⟩ := List.mem_map.mp secondIn
          exact .rel less
      · exact List.Pairwise.nil

/-! ### Nested lists -/

/-- Below every entry, the member with the next name is a list if it is there, and its positions fit
into a literal. -/
def Listed : List String → Json → Prop
  | [], _ => True
  | name :: names, value =>
      ∀ list, value.member? name = some list → ∃ elements, list = .array elements ∧
        (elements.length : Int) ≤ Lexer.greatestInteger + 1 ∧ ∀ element ∈ elements, Listed names element

theorem Listed.exists_entries {name : String} {names : List String} {value : Json}
    (listed : Listed (name :: names) value) :
    ∃ elements, Step.follow [.name name, .every] value = elements ∧
      (elements.length : Int) ≤ Lexer.greatestInteger + 1 ∧
      (∀ element ∈ elements, Listed names element) ∧
      indexVectors (name :: names) value = (elements.zipIdx.flatMap fun entry =>
        (indexVectors names entry.1).map (entry.2 :: ·)) ∧
      ∀ position element, elements[position]? = some element →
        Step.follow [.name name, .entry position] value = [element] := by
  cases found : value.member? name with
  | none =>
      refine ⟨[], ?_, by decide, nofun, ?_, nofun⟩
      · simp [Step.follow, Step.reach, found]
      · rw [indexVectors, found]
        rfl
  | some list =>
      obtain ⟨elements, rfl, bounded, each⟩ := listed list found
      refine ⟨elements, ?_, bounded, each, ?_, ?_⟩
      · simp [Step.follow, Step.reach, found, children]
      · rw [indexVectors, found]
      · intro position element present
        simp [Step.follow, Step.reach, found, element?, present]

theorem listed_of_follow {names : List String} {value : Json}
    (lists : ∀ before name after, names = before ++ name :: after →
      ∀ node ∈ Step.follow (Step.everyEntry before ++ [.name name]) value,
        ∃ elements, node = .array elements ∧
          (elements.length : Int) ≤ Lexer.greatestInteger + 1) :
    Listed names value := by
  induction names generalizing value with
  | nil => trivial
  | cons name names ih =>
      intro list found
      obtain ⟨elements, rfl, bounded⟩ := lists [] name names rfl list (by
        simp [Step.everyEntry, Step.follow, Step.reach, found])
      refine ⟨elements, rfl, bounded, fun element inside => ih ?_⟩
      rintro before next after rfl node reached
      apply lists (name :: before) next after rfl node
      simp only [Step.everyEntry, List.cons_append, Step.follow, Step.reach, found,
        Option.toList_some, List.flatMap_cons, List.flatMap_nil, List.append_nil, children]
      exact List.mem_flatMap_of_mem inside reached

theorem entries_plain {names : List String} {vector : List Nat} {value : Json}
    (plain : ∀ name ∈ names, PlainName name) (listed : Listed names value)
    (inside : vector ∈ indexVectors names value) :
    ∀ step ∈ Step.entries names vector, step.Plain := by
  induction names generalizing vector value with
  | nil => exact nofun
  | cons name names ih =>
      rw [indexVectors] at inside
      split at inside
      · rename_i elements found
        obtain ⟨entry, present, deeper⟩ := List.mem_flatMap.mp inside
        obtain ⟨rest, further, rfl⟩ := List.mem_map.mp deeper
        obtain ⟨_, same, bounded, each⟩ := listed _ found
        cases same
        have position := List.mk_mem_zipIdx_iff_getElem?.mp present
        obtain ⟨low, same⟩ := List.getElem?_eq_some_iff.mp position
        have later := ih (fun other known => plain other (List.mem_cons_of_mem _ known))
          (each entry.1 (List.mem_of_getElem? position)) further
        intro step known
        rcases List.mem_cons.mp known with rfl | known
        · exact plain name (List.mem_cons_self ..)
        · rcases List.mem_cons.mp known with rfl | known
          · change (_ : Int) ≤ _
            omega
          · exact later step known
      · cases inside

/-- Going over every entry is going over the vectors one after the other. -/
theorem follow_everyEntry {names : List String} {value : Json} (listed : Listed names value)
    (later : List Step) :
    Step.follow (Step.everyEntry names ++ later) value =
      (indexVectors names value).flatMap fun vector =>
        Step.follow (Step.entries names vector ++ later) value := by
  induction names generalizing value with
  | nil => simp [indexVectors, Step.everyEntry, Step.entries]
  | cons name names ih =>
      rw [indexVectors]
      cases found : value.member? name with
      | none => simp [Step.everyEntry, Step.follow, Step.reach, found]
      | some list =>
          obtain ⟨elements, rfl, _, each⟩ := listed list found
          have entry : ∀ pair ∈ elements.zipIdx, (indexVectors names pair.1).flatMap (fun rest =>
              Step.follow (Step.entries (name :: names) (pair.2 :: rest) ++ later) value) =
              Step.follow (Step.everyEntry names ++ later) pair.1 := by
            intro pair present
            have position := List.mk_mem_zipIdx_iff_getElem?.mp present
            rw [ih (each pair.1 (List.mem_of_getElem? position))]
            simp [Step.entries, Step.follow, Step.reach, found, element?, position]
          have whole : elements.flatMap (Step.follow (Step.everyEntry names ++ later)) =
              elements.zipIdx.flatMap fun pair =>
                Step.follow (Step.everyEntry names ++ later) pair.1 := by
            rw [← List.flatMap_map (f := Prod.fst), List.zipIdx_map_fst]
          simp only [List.flatMap_assoc, List.flatMap_map]
          rw [List.flatMap_congr entry, ← whole]
          simp [Step.everyEntry, Step.follow, Step.reach, found, children]

end Json

end TemplateFill
