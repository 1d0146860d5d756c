import TemplateFill.Proofs.Document.Selection
import TemplateFill.Proofs.Path.Order

/-!
The order of selected nodes in documents.

A well-formed document is a view of trees, so that what is known of such views holds of every
document that edits lead to.
-/

namespace TemplateFill

namespace Document

variable {document : Document}

theorem WellFormed.treeLike (wellFormed : document.WellFormed) :
    document.view.TreeLike (· < document.size) := by
  refine
    { descends := fun node present => ?_
      distinct := fun node present => ?_
      member := fun node present key found member => ?_
      element := fun node present position found element => ?_
      childWithin := fun node present child inside => (wellFormed.child inside).2.1 }
  all_goals obtain ⟨tree, rfl, holds⟩ := wellFormed.grounded present
  · rw [wellFormed.descendants_eq holds, Tree.numbers_eq,
      show document.view.children _ = _ from holds.children, List.flatMap_map]
    exact congrArg (tree.number :: ·) (List.flatMap_congr fun child inside =>
      (wellFormed.descendants_eq (holds.of_mem_children inside)).symm)
  · rw [wellFormed.descendants_eq holds]
    exact wellFormed.numbers_nodup holds
  · change document.member? key tree.number = some found at member
    rw [holds.member?] at member
    obtain ⟨child, reached, rfl⟩ := Option.map_eq_some_iff.mp member
    rw [show document.view.children _ = _ from holds.children]
    exact List.mem_map_of_mem (Tree.mem_children_of_member? reached)
  · rw [holds.element?] at element
    obtain ⟨child, reached, rfl⟩ := Option.map_eq_some_iff.mp element
    rw [show document.view.children _ = _ from holds.children]
    exact List.mem_map_of_mem (Tree.mem_children_of_element? reached)

/-- What is selected from a node are the ends of the trails, in the lexicographic order of the
trails, where nodes are compared by their places in the descent from the node. The selected nodes
are in that order themselves, each once, if no descent of the path picks from a node and from one
below it; so are those of every path without a descent. -/
theorem select_order (reachable : document.Reachable) {node : NodeId}
    (present : node < document.size) (segments : List Segment) :
    let before := document.view.Before node
    let selected := document.view.select node segments [node]
    (∀ number, ¬before number number) ∧
      (∃ trails : List (List NodeId × NodeId), selected = trails.map Prod.snd ∧
        (∀ trail last, (trail, last) ∈ trails ↔
          document.view.IsTrail node segments node trail last) ∧
        trails.Pairwise fun earlier later => List.Lex before earlier.1 later.1) ∧
      (¬document.view.Nests node segments [node] → selected.Pairwise before) := by
  have tree := reachable.wellFormed.treeLike
  have here := tree.self_mem present
  refine ⟨List.nodup_iff_sublist.mp (tree.distinct node present), ⟨_, ?_,
    fun trail last => View.mem_trails_iff, tree.pairwise_trails present segments here⟩, ?_⟩
  · rw [View.select_eq_trails, List.flatMap_singleton]
  · refine tree.pairwise_select present (fun other single => ?_) (List.pairwise_singleton _ _)
    rwa [List.mem_singleton.mp single]

/-- The members of the rows that are left come in order. -/
theorem select_order_rows :
    let row (number : Int) : Json := .object [("n", .integer number)]
    let value : Json := .object [("rows", .array [row 1, row 2]), ("n", .integer 3)]
    let document := (ofJson value).removeNode 6
    let segments := [Segment.descendant (.name "n")]
    document.Reachable ∧ root < document.size ∧ ¬document.view.Nests root segments [root] ∧
      document.view.select root segments [root] = [3, 5] ∧
      [3, 5].Pairwise (document.view.Before root) := by
  intro row value document segments
  have reachable : document.Reachable := .removeNode (.ofJson _) (by decide)
  have present : root < document.size := by decide
  have flat : ¬document.view.Nests root segments [root] := by
    rintro ⟨earlier, selector, later, split, start, first, upper, within, lower, below, nested⟩
    cases earlier with
    | cons other earlier => simp [segments] at split
    | nil =>
        simp only [segments, List.nil_append, List.cons.injEq, Segment.descendant.injEq] at split
        obtain ⟨rfl, -⟩ := split
        cases List.mem_singleton.mp first
        have picks : ∀ upper ∈ document.view.descendants root,
            ∀ lower ∈ document.view.descendants upper, ¬(lower ≠ upper ∧
              document.view.pick root (.name "n") upper ≠ [] ∧
              document.view.pick root (.name "n") lower ≠ []) := by
          decide +kernel
        exact picks upper within lower below nested
  have selected : document.view.select root segments [root] = [3, 5] := by decide +kernel
  have sorted := (select_order reachable present segments).2.2 flat
  rw [selected] at sorted
  exact ⟨reachable, present, flat, selected, sorted⟩

/-- A member comes before its namesake below an earlier member, although it stands behind it. -/
theorem select_order_siblings :
    let document := ofJson (.object [("x", .object [("a", .integer 1)]), ("a", .integer 2)])
    let segments := [Segment.descendant (.name "a")]
    document.view.select root segments [root] = [3, 2] ∧ document.view.Before root 2 3 ∧
      ¬(document.view.select root segments [root]).Pairwise fun first second =>
        first = second ∨ document.view.Before root first second := by
  decide +kernel

end Document

end TemplateFill
