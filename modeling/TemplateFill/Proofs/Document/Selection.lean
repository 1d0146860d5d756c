import TemplateFill.Proofs.Document.Reachable
import TemplateFill.Proofs.Path.Selection

/-!
Selecting in a document is selecting in its values.

A held tree stands between the two sides: dropping the values of its nodes leaves the numbers that
the document's view walks over, and dropping the numbers leaves the value that plain selection walks
over. Both maps carry selections along.
-/

namespace TemplateFill

/-! ### Sizes -/

namespace Json

theorem sizeOfMembers_eq (members : List (String × Json)) :
    sizeOfMembers members = sizeOfElements (members.map Prod.snd) := by
  induction members with
  | nil => rfl
  | cons member rest ih =>
      obtain ⟨key, value⟩ := member
      rw [sizeOfMembers, ih, List.map_cons, sizeOfElements]

theorem size_eq (value : Json) : value.size = sizeOfElements value.children + 1 := by
  cases value with
  | scalar value => rfl
  | array elements => rw [size, children]
  | object members => rw [size, sizeOfMembers_eq, children]

end Json

theorem Tree.size_toJson (tree : Tree) : tree.toJson.size = tree.numbers.length := by
  induction tree using Tree.induction with
  | step tree ih =>
      rw [Json.size_eq, children_toJson, numbers_eq, List.length_cons]
      apply congrArg (· + 1)
      generalize tree.children = children at ih
      induction children with
      | nil => rfl
      | cons child rest more =>
          rw [List.map_cons, Json.sizeOfElements, List.flatMap_cons, List.length_append,
            ih child (List.mem_cons_self ..),
            more fun other later => ih other (List.mem_cons_of_mem _ later)]

/-! ### The view of a tree -/

def Tree.view : View Tree :=
  { member? := Tree.member?
    element? := Tree.element?
    children := Tree.children
    scalar? := Tree.scalar?
    extent := fun tree => tree.numbers.length }

namespace Tree

theorem descendants_view (tree : Tree) : view.descendants tree = tree.preorder := by
  rw [View.descendants, View.walk_eq_take view preorder preorder_eq, List.flatMap_singleton,
    show view.extent tree = tree.preorder.length from List.length_map _, List.take_length]

theorem toJson_carries : View.Carries view Json.view toJson fun _ => True :=
  { member? := fun tree _ key => member?_toJson key tree
    element? := fun tree _ position => element?_toJson position tree
    children := fun tree _ => children_toJson tree
    scalar? := fun tree _ => scalar?_toJson tree
    descendants := by
      intro tree _
      have mapped := View.walk_map view Json.view toJson (fun _ => True)
        (fun node _ => children_toJson node) (fun _ _ _ _ => trivial) tree.numbers.length [tree]
        fun _ _ => trivial
      rw [View.descendants, View.descendants, show Json.view.extent tree.toJson = _ from
        tree.size_toJson]
      exact mapped.1
    memberWithin := fun _ _ _ _ _ => trivial
    elementWithin := fun _ _ _ _ _ => trivial
    childWithin := fun _ _ _ _ => trivial
    descendantWithin := fun _ _ _ _ => trivial }

/-- A descent from the value of a tree lists the values of all trees in it. -/
theorem descendants_toJson (tree : Tree) :
    Json.view.descendants tree.toJson = tree.preorder.map toJson := by
  rw [← descendants_view]
  exact toJson_carries.descendants tree trivial

end Tree

namespace Document

variable {document : Document} {tree : Tree}

/-! ### The view of a document -/

/-- A walk over a held tree lists its nodes, whatever number of steps from the document's size on it
is given. -/
theorem WellFormed.walk_eq (wellFormed : document.WellFormed) (holds : document.Holds tree)
    {steps : Nat} (enough : document.size ≤ steps) :
    document.view.walk steps [tree.number] = tree.numbers := by
  have mapped := (View.walk_map Tree.view document.view Tree.number document.Holds
    (fun node held => held.children) (fun node held child inside => held.of_mem_children inside)
    steps [tree] fun node single => by rwa [List.mem_singleton.mp single]).1
  have whole : tree.preorder.length ≤ steps := by
    have bounded := wellFormed.length_numbers_le holds
    rw [Tree.numbers, List.length_map] at bounded
    exact Nat.le_trans bounded enough
  rw [List.map_singleton, View.walk_eq_take Tree.view Tree.preorder Tree.preorder_eq,
    List.flatMap_singleton, List.take_of_length_le whole] at mapped
  exact mapped

theorem WellFormed.descendants_eq (wellFormed : document.WellFormed) (holds : document.Holds tree) :
    document.view.descendants tree.number = tree.numbers :=
  wellFormed.walk_eq holds (Nat.le_refl _)

/-- Dropping the values of held trees carries selections along. -/
theorem WellFormed.number_carries (wellFormed : document.WellFormed) :
    View.Carries Tree.view document.view Tree.number document.Holds :=
  { member? := fun tree holds key => holds.member? key
    element? := fun tree holds position => holds.element? position
    children := fun tree holds => holds.children
    scalar? := fun tree holds => holds.scalar?
    descendants := by
      intro tree holds
      rw [Tree.descendants_view]
      exact wellFormed.descendants_eq holds
    memberWithin := fun tree holds key found present =>
      holds.of_mem_children (Tree.mem_children_of_member? present)
    elementWithin := fun tree holds position found present =>
      holds.of_mem_children (Tree.mem_children_of_element? present)
    childWithin := fun tree holds child inside => holds.of_mem_children inside
    descendantWithin := by
      intro tree holds below inside
      rw [Tree.descendants_view] at inside
      exact holds.of_mem_preorder inside }

/-- What segments select from a node of a document is, as values and in order, what they select from
the value of that node. -/
theorem map_nodeToJson_select {document : Document} (reachable : document.Reachable)
    {node : NodeId} (present : node < document.size) (segments : List Segment) :
    (document.view.select node segments [node]).map document.nodeToJson =
      Json.view.select (document.nodeToJson node) segments [document.nodeToJson node] := by
  have wellFormed := reachable.wellFormed
  obtain ⟨tree, rfl, holds⟩ := wellFormed.grounded present
  obtain ⟨numbers, kept⟩ := wellFormed.number_carries.select_root holds segments
  have values := (@View.Carries.select_root _ _ _ _ _ _ tree Tree.toJson_carries trivial segments).1
  rw [numbers, List.map_map, wellFormed.nodeToJson_eq holds, values]
  exact List.map_congr_left fun found inside => wellFormed.nodeToJson_eq (kept found inside)

/-- The elements that a filter with a path from the root picks, after the first one was removed. -/
theorem map_nodeToJson_select_removed :
    let items : Json := .array [.integer 1, .integer 2, .object [("n", .integer 2)]]
    let document := (ofJson (.object [("items", items), ("n", .integer 2)])).removeNode 2
    let operand := [Segment.child (.name "n")]
    let segments := [Segment.descendant (.filter (.compare (.candidate operand) .equal (.root operand)))]
    document.Reachable ∧ root < document.size ∧
      (document.view.select root segments [root]).map document.nodeToJson =
        Json.view.select (document.nodeToJson root) segments [document.nodeToJson root] := by
  intro items document operand segments
  have reachable : document.Reachable := .removeNode (.ofJson _) (by decide)
  have present : root < document.size := by decide
  exact ⟨reachable, present, map_nodeToJson_select reachable present segments⟩

end Document

end TemplateFill
