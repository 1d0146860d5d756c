import TemplateFill.Proofs.Document.Order

/-!
Descents list trees in preorder.

The descent from a node of a document lists that node and all nodes below it, each once and each
before what is below it, and the loop with its stack comes to this list. The parents tell which nodes
are below, so what the loop reaches through children is compared with links in the other direction.
A plain value is listed in the order in which its nodes are numbered when it is laid out.
-/

namespace TemplateFill

namespace Json

theorem unfolds : view.Unfolds fun _ => True := by
  refine ⟨fun value _ => ?_, fun _ _ _ _ => trivial⟩
  obtain ⟨tree, rfl⟩ := exists_tree value
  rw [Tree.descendants_toJson, Tree.preorder_eq, List.map_cons, List.map_flatMap,
    show view.children tree.toJson = _ from Tree.children_toJson tree, List.flatMap_map]
  exact congrArg (tree.toJson :: ·) (List.flatMap_congr fun child _ =>
    (Tree.descendants_toJson child).symm)

end Json

namespace Document

variable {document : Document} {node : NodeId}

/-! ### Descents in documents -/

theorem WellFormed.mem_descendants_iff (wellFormed : document.WellFormed)
    (present : node < document.size) {number : NodeId} :
    number ∈ document.view.descendants node ↔
      ∃ levels, document.ancestor? number levels = some node := by
  obtain ⟨tree, rfl, holds⟩ := wellFormed.grounded present
  rw [wellFormed.descendants_eq holds]
  exact ⟨holds.ancestor?, fun ⟨levels, above⟩ =>
    wellFormed.mem_numbers_of_ancestor? holds levels number above⟩

/-- A descent lists a node before what is below it. -/
theorem WellFormed.before_of_ancestor? (wellFormed : document.WellFormed)
    (present : node < document.size) {upper lower : NodeId} {levels : Nat}
    (listed : upper ∈ document.view.descendants node)
    (above : document.ancestor? lower (levels + 1) = some upper) :
    document.view.Before node upper lower := by
  have tree := wellFormed.treeLike
  obtain ⟨upperPresent, part⟩ := tree.descendants_sublist present upper listed
  have below : lower ∈ document.view.descendants upper :=
    (wellFormed.mem_descendants_iff upperPresent).mpr ⟨levels + 1, above⟩
  rw [tree.descends upper upperPresent] at below part
  have different : lower ≠ upper := by
    intro same
    subst same
    exact wellFormed.ancestor?_ne_self lower levels above
  have deeper := (List.mem_cons.mp below).resolve_left different
  exact ((List.singleton_sublist.mpr deeper).cons_cons upper).trans part

/-- A descent from the value of a node lists the values of the nodes in the descent from the node. -/
theorem WellFormed.descendants_nodeToJson (wellFormed : document.WellFormed)
    (present : node < document.size) :
    Json.view.descendants (document.nodeToJson node) =
      (document.view.descendants node).map document.nodeToJson := by
  obtain ⟨tree, rfl, holds⟩ := wellFormed.grounded present
  rw [wellFormed.nodeToJson_eq holds, Tree.descendants_toJson, wellFormed.descendants_eq holds,
    Tree.numbers, List.map_map]
  exact List.map_congr_left fun below within =>
    (wellFormed.nodeToJson_eq (holds.of_mem_preorder within)).symm

/-! ### Documents of values -/

theorem descendants_ofJson (value : Json) :
    (ofJson value).view.descendants root = List.range value.size := by
  have numbers := (ofJson_wellFormed value).descendants_eq (ofJson_holds value)
  rwa [show (Tree.ofJson root value).number = root from Tree.number_place ..,
    Tree.numbers_ofJson, root, ← List.range_eq_range'] at numbers

/-- A descent from a value lists the values of its nodes in the order of their numbers. -/
theorem descendants_eq_map_nodeToJson (value : Json) :
    Json.view.descendants value = (List.range value.size).map (ofJson value).nodeToJson := by
  have wellFormed := ofJson_wellFormed value
  have listed := wellFormed.descendants_nodeToJson wellFormed.rooted
  rwa [show (ofJson value).nodeToJson root = value from toJson_ofJson value,
    descendants_ofJson] at listed

/-! ### Preorder -/

/-- The loop of a descent ends, after as many turns as it lists nodes, with nothing pending. It lists
the node and then, child by child, what the descents from its children list: every node that has the
node above it, or is it, exactly once, and each before what is below it. On a plain value the loop
ends in the same way, and it lists the values of the nodes of its layout, whose numbers are given in
that order. -/
theorem descendants_preorder (wellFormed : document.WellFormed) (present : node < document.size) :
    let listed := document.view.descendants node
    Descent.after? document.view listed.length (.start node) = some ⟨listed, []⟩ ∧
      listed = node :: (document.children node).flatMap document.view.descendants ∧
      listed.Nodup ∧
      (∀ number, number ∈ listed ↔ ∃ levels, document.ancestor? number levels = some node) ∧
      (∀ upper ∈ listed, ∀ lower levels, document.ancestor? lower (levels + 1) = some upper →
        document.view.Before node upper lower) ∧
      ∀ value : Json,
        let values := Json.view.descendants value
        Descent.after? Json.view value.size (.start value) = some ⟨values, []⟩ ∧
          values = value :: value.children.flatMap Json.view.descendants ∧
          (ofJson value).view.descendants root = List.range value.size ∧
          values = (List.range value.size).map (ofJson value).nodeToJson := by
  have tree := wellFormed.treeLike
  refine ⟨tree.unfolds.after?_start present, tree.descends node present,
    tree.distinct node present, fun number => wellFormed.mem_descendants_iff present,
    fun upper listed lower levels above => wellFormed.before_of_ancestor? present listed above,
    fun value => ⟨?_, Json.unfolds.descends value trivial, descendants_ofJson value,
      descendants_eq_map_nodeToJson value⟩⟩
  have size : (Json.view.descendants value).length = value.size := by
    rw [descendants_eq_map_nodeToJson, List.length_map, List.length_range]
  rw [← size]
  exact Json.unfolds.after?_start trivial

/-- A row is replaced, so that the nodes below it have the last numbers, and the row is still listed
where it was. Two turns lead to it; what was below it before lies below the root no more. -/
theorem descendants_preorder_replaced :
    let rows : Json := .array [.object [("n", .integer 1)]]
    let row : Json := .object [("a", .bool true), ("b", .array [.null])]
    let document := (ofJson (.object [("rows", rows), ("n", .integer 2)])).replaceValue 2 row
    document.WellFormed ∧ root < document.size ∧
      Descent.after? document.view 2 (.start root) = some ⟨[0, 1], [4, 2]⟩ ∧
      Descent.after? document.view 7 (.start root) = some ⟨[0, 1, 2, 5, 6, 7, 4], []⟩ ∧
      (∀ levels, document.ancestor? 3 levels ≠ some root) ∧ document.view.Before root 6 7 := by
  intro rows row document
  have wellFormed : document.WellFormed :=
    (Reachable.replaceValue (.ofJson _) (by decide) row).wellFormed
  have present : root < document.size := by decide
  have listed : document.view.descendants root = [0, 1, 2, 5, 6, 7, 4] := by decide +kernel
  obtain ⟨ended, _, _, below, before, _⟩ := descendants_preorder wellFormed present
  rw [listed] at ended below before
  have unlinked : ∀ levels, document.ancestor? 3 levels ≠ some root := fun levels above =>
    absurd ((below 3).mpr ⟨levels, above⟩) (by decide)
  exact ⟨wellFormed, present, by decide +kernel, ended, unlinked,
    before 6 (by decide) 7 0 (by decide +kernel)⟩

end Document

end TemplateFill
