import TemplateFill.Document.Location
import TemplateFill.Proofs.Document.History
import TemplateFill.Proofs.Document.Selection
import Mathlib.Data.List.Induction

/-!
Where following links ends.

Appending refuses a child that has a parent and the root, but not an array that is put into itself
or below itself while it is unlinked. Without such an edit every climb and every descent ends within
the numbers of steps that the functions of documents allow for. With one, the links run in a circle.
-/

namespace TemplateFill

namespace Document

variable {document edited : Document} {node : NodeId}

/-! ### Climbing with more steps -/

theorem topOf?_add {levels : Nat} {top : NodeId} (found : document.topOf? node levels = some top)
    (more : Nat) : document.topOf? node (levels + more) = some top := by
  induction levels generalizing node with
  | zero => cases found
  | succ levels ih =>
      rw [Nat.add_right_comm, topOf?]
      rw [topOf?] at found
      cases link : document.parent? node with
      | none => rwa [link] at found
      | some parent =>
          rw [link] at found
          exact ih found

theorem locationBefore?_add {levels : Nat} {top : NodeId}
    (found : document.topOf? node levels = some top) (more : Nat) (behind : List Char) :
    document.locationBefore? (levels + more) node behind =
      document.locationBefore? levels node behind := by
  induction levels generalizing node behind with
  | zero => cases found
  | succ levels ih =>
      rw [Nat.add_right_comm, locationBefore?, locationBefore?]
      rw [topOf?] at found
      cases link : document.parent? node with
      | none => rfl
      | some parent =>
          rw [link] at found
          dsimp only
          cases stepTo? node (document.content parent) with
          | none => rfl
          | some step => exact ih found (step ++ behind)

theorem topOf?_of_ancestor? {levels : Nat} {top : NodeId}
    (climbed : document.ancestor? node levels = some top) (ends : document.parent? top = none) :
    document.topOf? node (levels + 1) = some top := by
  induction levels generalizing node with
  | zero =>
      cases climbed
      rw [topOf?, ends]
  | succ levels ih =>
      obtain ⟨parent, link, above⟩ := Option.bind_eq_some_iff.mp climbed
      rw [topOf?, link]
      exact ih above

/-- Each level climbed leads to the top of a larger tree, so that a climb is no longer than the
table of nodes. -/
theorem WellFormed.exists_top (wellFormed : document.WellFormed) {tree : Tree}
    (holds : document.Holds tree) :
    ∃ levels top, document.ancestor? tree.number levels = some top ∧ document.parent? top = none ∧
      levels + tree.numbers.length ≤ document.size := by
  have bounded := wellFormed.length_numbers_le holds
  generalize room : document.size - tree.numbers.length = left
  induction left using Nat.strongRecOn generalizing tree with
  | ind left ih =>
      cases link : document.parent? tree.number with
      | none => exact ⟨0, tree.number, rfl, link, by omega⟩
      | some parent =>
          obtain ⟨upper, child, upperHolds, inside, rfl, same⟩ := wellFormed.exists_above link
          cases (upperHolds.of_mem_children inside).unique holds same
          have larger := Tree.length_numbers_lt inside
          have upperBounded := wellFormed.length_numbers_le upperHolds
          obtain ⟨levels, top, climbed, ends, total⟩ := ih
            (document.size - upper.numbers.length) (by omega) upperHolds upperBounded rfl
          refine ⟨levels + 1, top, ?_, ends, by omega⟩
          rw [ancestor?, link]
          exact climbed

/-! ### Traversals -/

/-- Links lead from a node to an end in both directions, and what climbs or descends from the node
answers as it would with any larger number of steps. -/
structure Traversable (document : Document) (node : NodeId) : Prop where
  /-- The parents above the node end at one that has none. -/
  upwards : ∃ levels top, document.ancestor? node levels = some top ∧ document.parent? top = none
  /-- No chain of children below the node is infinite. -/
  downwards : Acc (fun child parent => child ∈ document.children parent) node
  /-- The climb that tells whether the node is attached. -/
  attachment : ∃ top, ∀ more, document.topOf? node (document.size + 1 + more) = some top
  /-- The climb that writes the location of the node. -/
  location : ∀ more behind, document.locationBefore? (document.size + 1 + more) node behind =
    document.locationBefore? (document.size + 1) node behind
  /-- The descent that reads the value of the node, which is also what a copy is laid out from. -/
  value : ∀ more, document.toJsonWithin (document.size + more) node = document.nodeToJson node
  /-- The descent of a path that starts at the node. -/
  descent : ∀ more, document.view.walk (document.size + more) [node] =
    document.view.descendants node

theorem Holds.acc {tree : Tree} (holds : document.Holds tree) :
    Acc (fun child parent => child ∈ document.children parent) tree.number := by
  induction holds with
  | @intro tree present content linked below ih =>
      refine Acc.intro _ fun number inside => ?_
      rw [(Holds.intro present content linked below).children] at inside
      obtain ⟨child, directly, rfl⟩ := List.mem_map.mp inside
      exact ih child directly

theorem WellFormed.traversable (wellFormed : document.WellFormed) (present : node < document.size) :
    document.Traversable node := by
  obtain ⟨tree, rfl, holds⟩ := wellFormed.grounded present
  obtain ⟨levels, top, climbed, ends, bounded⟩ := wellFormed.exists_top holds
  have found : document.topOf? tree.number (document.size + 1) = some top := by
    have climb := topOf?_add (topOf?_of_ancestor? climbed ends) (document.size - levels)
    rwa [show levels + 1 + (document.size - levels) = document.size + 1 by omega] at climb
  have size := wellFormed.length_numbers_le holds
  exact
    { upwards := ⟨levels, top, climbed, ends⟩
      downwards := holds.acc
      attachment := ⟨top, topOf?_add found⟩
      location := locationBefore?_add found
      value := fun more => by
        rw [wellFormed.nodeToJson_eq holds, WellFormed.toJsonWithin_eq holds _ (by omega)]
      descent := fun more => by
        rw [wellFormed.walk_eq holds (Nat.le_add_right _ _), wellFormed.descendants_eq holds] }

/-! ### Appends that loop -/

theorem ancestor?_add (levels more : Nat) :
    document.ancestor? node (levels + more) =
      (document.ancestor? node levels).bind fun above => document.ancestor? above more := by
  induction levels generalizing node with
  | zero => rw [Nat.zero_add, ancestor?, Option.bind_some]
  | succ levels ih =>
      rw [Nat.add_right_comm, ancestor?, ancestor?]
      cases document.parent? node with
      | none => rfl
      | some parent => exact ih

theorem isSome_ancestor?_of_loop {levels : Nat}
    (back : document.ancestor? node (levels + 1) = some node) (more : Nat) :
    (document.ancestor? node more).isSome = true := by
  induction more using Nat.strongRecOn with
  | ind more ih =>
      by_cases short : more ≤ levels + 1
      · cases reached : document.ancestor? node more with
        | some above => rfl
        | none =>
            have split := @ancestor?_add document node more (levels + 1 - more)
            rw [Nat.add_sub_cancel' short, back, reached] at split
            cases split
      · have split := @ancestor?_add document node (levels + 1) (more - (levels + 1))
        rw [Nat.add_sub_cancel' (by omega), back, Option.bind_some] at split
        rw [split]
        exact ih _ (by omega)

theorem parent?_of_appendChild {array child : NodeId} (given : child < document.size)
    (done : document.appendChild array child = .ok edited) :
    document.parent? child = none ∧ edited.parent? child = some array ∧
      ∀ other, other ≠ child → edited.parent? other = document.parent? other := by
  obtain ⟨detached, _, listed, _, rfl⟩ := appendChild_cases done
  exact ⟨detached, parent?_appendElement_self given, fun _ => parent?_appendElement_of_ne⟩

theorem ancestor?_of_parent?_eq {top : NodeId} (ends : document.parent? top = none)
    (others : ∀ other, other ≠ top → edited.parent? other = document.parent? other) {levels : Nat}
    (climbed : document.ancestor? node levels = some top) :
    edited.ancestor? node levels = some top := by
  induction levels generalizing node with
  | zero => exact climbed
  | succ levels ih =>
      obtain ⟨parent, link, above⟩ := Option.bind_eq_some_iff.mp climbed
      have apart : node ≠ top := by
        rintro rfl
        rw [ends] at link
        cases link
      rw [ancestor?, others node apart, link]
      exact ih above

/-- Behind an append that loops, the climb from the child never ends. -/
theorem Loops.endless {array child : NodeId} (loops : document.Loops (.appendChild array child))
    (given : child < document.size) (more : Nat) :
    ((document.apply (.appendChild array child)).ancestor? child more).isSome = true := by
  obtain ⟨⟨edited, done⟩, levels, above⟩ := loops
  obtain ⟨unlinked, linked, others⟩ := parent?_of_appendChild given done
  rw [show document.apply (.appendChild array child) = edited by rw [apply, done]]
  have back : edited.ancestor? child (levels + 1) = some child := by
    rw [ancestor?, linked]
    exact ancestor?_of_parent?_eq unlinked others above
  exact isSome_ancestor?_of_loop back more

theorem Loops.exists_not_traversable {edit : Edit} (loops : document.Loops edit)
    (known : document.Knows edit) :
    ∃ node < (document.apply edit).size, ¬(document.apply edit).Traversable node := by
  cases edit with
  | appendChild array child =>
      have given : child < document.size := known child (by simp [Edit.nodes])
      have endless := loops.endless given
      refine ⟨child, ?_, fun traversable => ?_⟩
      · obtain ⟨above, climbed⟩ := Option.isSome_iff_exists.mp (endless 1)
        obtain ⟨parent, link, _⟩ := Option.bind_eq_some_iff.mp climbed
        exact lt_size_of_parent? link
      · obtain ⟨levels, top, climbed, ends⟩ := traversable.upwards
        have further := endless (levels + 1)
        rw [ancestor?_succ, climbed, Option.bind_some, ends] at further
        cases further
  | _ => exact loops.elim

/-! ### Histories -/

def KnowsAll (document : Document) (edits : List Edit) : Prop :=
  ∀ earlier edit, earlier ++ [edit] <+: edits → (document.run earlier).Knows edit

def LoopsNever (document : Document) (edits : List Edit) : Prop :=
  ∀ earlier edit, earlier ++ [edit] <+: edits → ¬(document.run earlier).Loops edit

theorem run_append_singleton (earlier : List Edit) (edit : Edit) :
    document.run (earlier ++ [edit]) = (document.run earlier).apply edit := by
  rw [run, run, List.foldl_append, List.foldl_cons, List.foldl_nil]

theorem reachable_run_of_loopsNever {edits earlier : List Edit} (reachable : document.Reachable)
    (known : document.KnowsAll edits) (never : document.LoopsNever edits)
    (part : earlier <+: edits) : (document.run earlier).Reachable := by
  induction earlier using List.reverseRecOn with
  | nil => exact reachable
  | append_singleton earlier edit ih =>
      have before := ih ((List.prefix_append earlier [edit]).trans part)
      rw [run_append_singleton]
      exact reachable_apply before (known earlier edit part) (never earlier edit part)

/-- All along a history, links end in both directions from every node and all traversals come to
their ends, exactly if no edit of the history loops. Behind one that does, no climb from the child
that was appended comes to an end. -/
theorem traversable_run_iff (value : Json) {edits : List Edit}
    (known : (ofJson value).KnowsAll edits) :
    ((∀ earlier, earlier <+: edits → ∀ node < ((ofJson value).run earlier).size,
        ((ofJson value).run earlier).Traversable node) ↔ (ofJson value).LoopsNever edits) ∧
      ∀ earlier array child, earlier ++ [.appendChild array child] <+: edits →
        ((ofJson value).run earlier).Loops (.appendChild array child) →
          ∀ levels, (((ofJson value).run (earlier ++ [.appendChild array child])).ancestor? child
            levels).isSome = true := by
  refine ⟨⟨fun traversable earlier edit part loops => ?_, fun never earlier part node present => ?_⟩,
    fun earlier array child part loops levels => ?_⟩
  · obtain ⟨node, present, stuck⟩ := loops.exists_not_traversable (known earlier edit part)
    rw [← run_append_singleton] at present stuck
    exact stuck (traversable _ part node present)
  · have reachable := reachable_run_of_loopsNever (.ofJson value) known never part
    exact reachable.wellFormed.traversable present
  · have given : child < ((ofJson value).run earlier).size :=
      known earlier _ part child (by simp [Edit.nodes])
    rw [run_append_singleton]
    exact loops.endless given levels

/-- An unlinked array is put below its former sibling. -/
theorem traversable_run_moved :
    let value : Json := .array [.array [], .array []]
    let edits : List Edit := [.removeNode 1, .appendChild 2 1]
    (ofJson value).KnowsAll edits ∧ ∀ node < ((ofJson value).run edits).size,
      ((ofJson value).run edits).Traversable node := by
  intro value edits
  have known : (ofJson value).KnowsAll edits := by
    rintro (_ | ⟨first, _ | ⟨second, more⟩⟩) edit part
    · cases (List.cons_prefix_cons.mp part).1
      decide
    · obtain ⟨rfl, rest⟩ := List.cons_prefix_cons.mp part
      cases (List.cons_prefix_cons.mp rest).1
      decide
    · simp [edits, List.cons_prefix_cons] at part
  have never : (ofJson value).LoopsNever edits := by
    rintro (_ | ⟨first, _ | ⟨second, more⟩⟩) edit part
    · cases (List.cons_prefix_cons.mp part).1
      exact id
    · obtain ⟨rfl, rest⟩ := List.cons_prefix_cons.mp part
      cases (List.cons_prefix_cons.mp rest).1
      rintro ⟨_, _ | _ | levels, above⟩ <;> cases above
    · simp [edits, List.cons_prefix_cons] at part
  exact ⟨known, (traversable_run_iff value known).1.mpr never edits (List.prefix_refl _)⟩

/-- An unlinked array is put into itself, and is its own parent from then on. -/
theorem appendChild_to_itself :
    let document := (ofJson (.object [("a", .array [])])).removeNode 1
    ∃ edited, document.appendChild 1 1 = .ok edited ∧ edited.parent? 1 = some 1 ∧
      1 ∈ edited.children 1 ∧ (∀ levels, edited.ancestor? 1 levels = some 1) ∧
      ∀ levels, edited.topOf? 1 levels = none := by
  intro document
  refine ⟨_, rfl, by decide, by decide, fun levels => ?_, fun levels => ?_⟩
  · induction levels with
    | zero => rfl
    | succ levels ih => exact ih
  · induction levels with
    | zero => rfl
    | succ levels ih => exact ih

end Document

end TemplateFill
