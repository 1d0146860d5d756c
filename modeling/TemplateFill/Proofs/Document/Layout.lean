import TemplateFill.Document.Edit
import TemplateFill.Proofs.Document.WellFormed

/-!
Laying values out.

The tree that a value becomes is numbered like its layout: the node on top, then the nodes below it
in preorder, without gaps. A document that holds one value is well-formed, and laying a value out
behind a well-formed document leaves every held tree as it was.
-/

namespace TemplateFill

namespace Tree

/-! ### Numbering values -/

mutual

/-- The tree of a value whose node has the given number and whose other nodes are numbered from
`first` on. -/
def place (number first : NodeId) : Json → Tree
  | .scalar value => .scalar number value
  | .array elements => .array number (placeElements first elements)
  | .object members => .object number (placeMembers first members)

def placeElements (first : NodeId) : List Json → List Tree
  | [] => []
  | element :: rest =>
      place first (first + 1) element :: placeElements (first + element.size) rest

def placeMembers (first : NodeId) : List (String × Json) → List (String × Tree)
  | [] => []
  | (key, value) :: rest =>
      (key, place first (first + 1) value) :: placeMembers (first + value.size) rest

end

def ofJson (first : NodeId) (value : Json) : Tree := place first (first + 1) value

@[simp] theorem number_place (number first : NodeId) (value : Json) :
    (place number first value).number = number := by
  cases value <;> rw [place] <;> rfl

mutual

theorem toJson_place (number first : NodeId) : ∀ value, (place number first value).toJson = value
  | .scalar value => by rw [place, toJson]
  | .array elements => by
      rw [place, toJson, toJson_placeElements first elements]
  | .object members => by
      rw [place, toJson, toJson_placeMembers first members]

theorem toJson_placeElements (first : NodeId) :
    ∀ elements, (placeElements first elements).map toJson = elements
  | [] => by rw [placeElements, List.map_nil]
  | element :: rest => by
      rw [placeElements, List.map_cons, toJson_place first (first + 1) element,
        toJson_placeElements (first + element.size) rest]

theorem toJson_placeMembers (first : NodeId) :
    ∀ members, (placeMembers first members).map (fun member => (member.1, member.2.toJson)) = members
  | [] => by rw [placeMembers, List.map_nil]
  | (key, value) :: rest => by
      rw [placeMembers, List.map_cons, toJson_place first (first + 1) value,
        toJson_placeMembers (first + value.size) rest]

end

theorem size_pos (value : Json) : 0 < value.size := by
  cases value <;> rw [Json.size] <;> exact Nat.succ_pos _

private theorem range'_cons_size (first : NodeId) (value : Json) :
    first :: List.range' (first + 1) (value.size - 1) = List.range' first value.size := by
  have positive := size_pos value
  obtain ⟨rest, same⟩ : ∃ rest, value.size = rest + 1 := ⟨value.size - 1, by omega⟩
  rw [same, List.range'_succ, Nat.add_sub_cancel]

mutual

theorem numbers_place (number first : NodeId) :
    ∀ value, (place number first value).numbers = number :: List.range' first (value.size - 1)
  | .scalar value => by
      rw [place, numbers_eq, Json.size]
      rfl
  | .array elements => by
      rw [place, numbers_eq, Json.size, Nat.add_sub_cancel]
      exact congrArg (List.cons number) (numbers_placeElements first elements)
  | .object members => by
      rw [place, numbers_eq, Json.size, Nat.add_sub_cancel]
      exact congrArg (List.cons number) (numbers_placeMembers first members)

theorem numbers_placeElements (first : NodeId) :
    ∀ elements, (placeElements first elements).flatMap numbers =
      List.range' first (Json.sizeOfElements elements)
  | [] => by rw [placeElements, Json.sizeOfElements]; rfl
  | element :: rest => by
      rw [placeElements, List.flatMap_cons, numbers_place first (first + 1) element,
        numbers_placeElements (first + element.size) rest, range'_cons_size,
        Json.sizeOfElements, List.range'_append_1]

theorem numbers_placeMembers (first : NodeId) :
    ∀ members, ((placeMembers first members).map Prod.snd).flatMap numbers =
      List.range' first (Json.sizeOfMembers members)
  | [] => by rw [placeMembers, Json.sizeOfMembers]; rfl
  | (key, value) :: rest => by
      rw [placeMembers, List.map_cons, List.flatMap_cons, numbers_place first (first + 1) value,
        numbers_placeMembers (first + value.size) rest, range'_cons_size,
        Json.sizeOfMembers, List.range'_append_1]

end

theorem le_number_of_mem_place {number first : NodeId} {value : Json} {child : Tree}
    (inside : child ∈ (place number first value).children) : first ≤ child.number := by
  have numbered := numbers_place number first value
  rw [numbers_eq, List.cons.injEq] at numbered
  have within : child.number ∈ (place number first value).children.flatMap numbers :=
    List.mem_flatMap.mpr ⟨child, inside, child.number_mem_numbers⟩
  rw [numbered.2] at within
  exact (List.mem_range'_1.mp within).1

@[simp] theorem number_ofJson (first : NodeId) (value : Json) :
    (ofJson first value).number = first :=
  number_place ..

theorem numbers_ofJson (first : NodeId) (value : Json) :
    (ofJson first value).numbers = List.range' first value.size := by
  rw [ofJson, numbers_place, range'_cons_size]

theorem mem_numbers_ofJson {first node : NodeId} {value : Json} :
    node ∈ (ofJson first value).numbers ↔ first ≤ node ∧ node < first + value.size := by
  rw [numbers_ofJson, List.mem_range'_1]

theorem nodup_numbers_ofJson (first : NodeId) (value : Json) :
    (ofJson first value).numbers.Nodup := by
  rw [numbers_ofJson]
  exact List.nodup_range'

theorem nodup_numbers_place {number first : NodeId} (apart : number < first) (value : Json) :
    (place number first value).numbers.Nodup := by
  rw [numbers_place, List.nodup_cons]
  exact ⟨fun inside => Nat.not_le.mpr apart (List.mem_range'_1.mp inside).1, List.nodup_range'⟩

private theorem number_placeElements (first : NodeId) (elements : List Json) :
    (placeElements first elements).map number = Document.numberElements first elements := by
  induction elements generalizing first with
  | nil => rw [placeElements, Document.numberElements]; rfl
  | cons element rest ih =>
      rw [placeElements, Document.numberElements, List.map_cons, number_place, ih]

private theorem number_placeMembers (first : NodeId) (members : List (String × Json)) :
    (placeMembers first members).map (fun member => (member.1, member.2.number)) =
      Document.numberMembers first members := by
  induction members generalizing first with
  | nil => rw [placeMembers, Document.numberMembers]; rfl
  | cons member rest ih =>
      obtain ⟨key, value⟩ := member
      rw [placeMembers, Document.numberMembers, List.map_cons, number_place, ih]

theorem content_place (number first : NodeId) (value : Json) :
    (place number first value).content = Document.contentOf first value := by
  cases value with
  | scalar value => rw [place]; rfl
  | array elements =>
      rw [place, content, number_placeElements, Document.contentOf]
  | object members =>
      rw [place, content, number_placeMembers, Document.contentOf]

theorem children_sublist_numbers (children : List Tree) :
    (children.map number).Sublist (children.flatMap numbers) := by
  induction children with
  | nil => exact List.Sublist.refl _
  | cons child rest ih =>
      rw [List.map_cons, List.flatMap_cons, numbers_eq, List.cons_append]
      exact (ih.trans (List.sublist_append_right _ _)).cons_cons child.number

theorem nodup_of_mem_preorder {tree below : Tree} (nodup : tree.numbers.Nodup)
    (inside : below ∈ tree.preorder) : below.numbers.Nodup := by
  induction tree using induction with
  | step tree ih =>
      rcases mem_preorder_iff.mp inside with same | ⟨child, directly, deeper⟩
      · subst same
        exact nodup
      · rw [numbers_eq, List.nodup_cons] at nodup
        exact ih child directly ((List.nodup_flatMap.mp nodup.2).1 child directly) deeper

/-- A tree that stands ahead of another in preorder does not lie in it. -/
theorem pairwise_preorder {tree : Tree} (nodup : tree.numbers.Nodup) :
    tree.preorder.Pairwise fun earlier later => earlier.number ∉ later.numbers := by
  induction tree using induction with
  | step tree ih =>
      rw [numbers_eq, List.nodup_cons, List.nodup_flatMap] at nodup
      obtain ⟨top, each, apart⟩ := nodup
      rw [preorder_eq, List.pairwise_cons, List.pairwise_flatMap]
      refine ⟨?_, fun child directly => ih child directly (each child directly), ?_⟩
      · intro later inside repeated
        obtain ⟨child, directly, within⟩ := List.mem_flatMap.mp inside
        exact top (List.mem_flatMap.mpr ⟨child, directly, numbers_subset within repeated⟩)
      · refine apart.imp fun disjoint earlier first later second repeated => ?_
        exact disjoint (mem_numbers_of_mem_preorder first) (numbers_subset second repeated)

theorem nodup_children {tree : Tree} (nodup : tree.numbers.Nodup) :
    (tree.children.map number).Nodup := by
  rw [numbers_eq, List.nodup_cons] at nodup
  exact nodup.2.sublist (children_sublist_numbers tree.children)

end Tree

theorem Json.exists_tree (value : Json) : ∃ tree : Tree, tree.toJson = value :=
  ⟨Tree.ofJson 0 value, Tree.toJson_place ..⟩

namespace Document

/-! ### Nodes behind the last one -/

theorem nodes_extend (document : Document) (nodes : List Node) (node : NodeId) :
    (document.extend nodes).nodes[node]? =
      if node < document.size then document.nodes[node]? else nodes[node - document.size]? := by
  by_cases old : node < document.size
  · rw [if_pos old]
    exact Array.getElem?_append_left old
  · have beyond : document.nodes.size ≤ node := Nat.le_of_not_lt old
    rw [if_neg old, extend, Array.getElem?_append_right beyond, List.getElem?_toArray]
    rfl

theorem size_extend (document : Document) (nodes : List Node) :
    (document.extend nodes).size = document.size + nodes.length := by
  rw [size, extend, Array.size_append, List.size_toArray]
  rfl

theorem content_extend {document : Document} {nodes : List Node} {node : NodeId}
    (old : node < document.size) : (document.extend nodes).content node = document.content node := by
  rw [content, nodes_extend, if_pos old, ← content]

theorem parent?_extend {document : Document} {nodes : List Node} {node : NodeId}
    (old : node < document.size) : (document.extend nodes).parent? node = document.parent? node := by
  rw [parent?, nodes_extend, if_pos old, ← parent?]

/-! ### Layouts -/

/-- The document's table has the given nodes in a row from a number on. -/
def Lays (document : Document) (first : NodeId) (nodes : List Node) : Prop :=
  ∀ (position : Nat) (node : Node),
    nodes[position]? = some node → document.nodes[first + position]? = some node

theorem Lays.cons {document : Document} {first : NodeId} {node : Node} {nodes : List Node}
    (lays : document.Lays first (node :: nodes)) :
    document.nodes[first]? = some node ∧ document.Lays (first + 1) nodes := by
  constructor
  · exact lays 0 node rfl
  · intro position later found
    rw [Nat.add_assoc, Nat.add_comm 1]
    exact lays (position + 1) later found

theorem Lays.append {document : Document} {first : NodeId} {left right : List Node}
    (lays : document.Lays first (left ++ right)) :
    document.Lays first left ∧ document.Lays (first + left.length) right := by
  constructor
  · intro position node found
    apply lays position node
    rw [List.getElem?_append_left (List.getElem?_eq_some_iff.mp found).1, found]
  · intro position node found
    rw [Nat.add_assoc]
    apply lays (left.length + position) node
    rw [List.getElem?_append_right (Nat.le_add_right _ _), Nat.add_sub_cancel_left, found]

theorem lays_extend (document : Document) (nodes : List Node) :
    (document.extend nodes).Lays document.size nodes := by
  intro position node found
  rw [nodes_extend, if_neg (Nat.not_lt.mpr (Nat.le_add_right _ _)),
    Nat.add_sub_cancel_left, found]

theorem layOut_eq (first : NodeId) (parent? : Option NodeId) (value : Json) :
    layOut first parent? value =
      ⟨parent?, contentOf (first + 1) value⟩ :: layOutChildren (first + 1) first value := by
  cases value <;> rw [layOut] <;> rfl

mutual

theorem length_layOut (first : NodeId) (parent? : Option NodeId) :
    ∀ value, (layOut first parent? value).length = value.size
  | .scalar value => by rw [layOut, Json.size]; rfl
  | .array elements => by
      rw [layOut, Json.size, List.length_cons, length_layOutElements]
  | .object members => by
      rw [layOut, Json.size, List.length_cons, length_layOutMembers]

theorem length_layOutElements (first parent : NodeId) :
    ∀ elements, (layOutElements first parent elements).length = Json.sizeOfElements elements
  | [] => by rw [layOutElements, Json.sizeOfElements]; rfl
  | element :: rest => by
      rw [layOutElements, Json.sizeOfElements, List.length_append, length_layOut,
        length_layOutElements]

theorem length_layOutMembers (first parent : NodeId) :
    ∀ members, (layOutMembers first parent members).length = Json.sizeOfMembers members
  | [] => by rw [layOutMembers, Json.sizeOfMembers]; rfl
  | (key, value) :: rest => by
      rw [layOutMembers, Json.sizeOfMembers, List.length_append, length_layOut,
        length_layOutMembers]

end

theorem length_layOutChildren (first parent : NodeId) (value : Json) :
    (layOutChildren first parent value).length = value.size - 1 := by
  have whole := length_layOut first none value
  rw [layOut_eq, List.length_cons] at whole
  cases value with
  | scalar value => rw [layOutChildren, Json.size]; rfl
  | array elements => rw [layOutChildren, length_layOutElements, Json.size]; rfl
  | object members => rw [layOutChildren, length_layOutMembers, Json.size]; rfl

theorem content_of_nodes {document : Document} {node : NodeId} {found : Node}
    (there : document.nodes[node]? = some found) : document.content node = found.content := by
  rw [content, there]

theorem parent?_of_nodes {document : Document} {node : NodeId} {found : Node}
    (there : document.nodes[node]? = some found) : document.parent? node = found.parent? := by
  rw [parent?, there]
  rfl

mutual

theorem holds_place {document : Document} (number first : NodeId) :
    ∀ value, number < document.size → document.content number = contentOf first value →
      document.Lays first (layOutChildren first number value) →
      document.Holds (Tree.place number first value)
  | .scalar value, present, recorded, _ => by
      refine .intro ?_ ?_ ?_ ?_
      · rwa [Tree.number_place]
      · rw [Tree.number_place, recorded, Tree.content_place]
      · rw [Tree.place]; exact nofun
      · rw [Tree.place]; exact nofun
  | .array elements, present, recorded, lays => by
      have below := holds_placeElements first number elements lays
      refine .intro ?_ ?_ ?_ ?_
      · rwa [Tree.number_place]
      · rw [Tree.number_place, recorded, Tree.content_place]
      · rw [Tree.number_place, Tree.place]
        exact fun child inside => (below child inside).1
      · rw [Tree.place]
        exact fun child inside => (below child inside).2
  | .object members, present, recorded, lays => by
      have below := holds_placeMembers first number members lays
      refine .intro ?_ ?_ ?_ ?_
      · rwa [Tree.number_place]
      · rw [Tree.number_place, recorded, Tree.content_place]
      · rw [Tree.number_place, Tree.place]
        intro child inside
        obtain ⟨member, present, rfl⟩ := List.mem_map.mp inside
        exact (below member present).1
      · rw [Tree.place]
        intro child inside
        obtain ⟨member, present, rfl⟩ := List.mem_map.mp inside
        exact (below member present).2

theorem holds_placeElements {document : Document} (first parent : NodeId) :
    ∀ elements, document.Lays first (layOutElements first parent elements) →
      ∀ child ∈ Tree.placeElements first elements,
        document.parent? child.number = some parent ∧ document.Holds child
  | [], _ => by rw [Tree.placeElements]; exact nofun
  | element :: rest, lays => by
      rw [layOutElements] at lays
      obtain ⟨here, later⟩ := lays.append
      rw [length_layOut] at later
      rw [layOut_eq] at here
      obtain ⟨top, below⟩ := here.cons
      rw [Tree.placeElements]
      intro child inside
      rcases List.mem_cons.mp inside with rfl | further
      · rw [Tree.number_place]
        exact ⟨parent?_of_nodes top, holds_place first (first + 1) element
          (Array.getElem?_eq_some_iff.mp top).1 (content_of_nodes top) below⟩
      · exact holds_placeElements (first + element.size) parent rest later child further

theorem holds_placeMembers {document : Document} (first parent : NodeId) :
    ∀ members, document.Lays first (layOutMembers first parent members) →
      ∀ member ∈ Tree.placeMembers first members,
        document.parent? member.2.number = some parent ∧ document.Holds member.2
  | [], _ => by rw [Tree.placeMembers]; exact nofun
  | (key, value) :: rest, lays => by
      rw [layOutMembers] at lays
      obtain ⟨here, later⟩ := lays.append
      rw [length_layOut] at later
      rw [layOut_eq] at here
      obtain ⟨top, below⟩ := here.cons
      rw [Tree.placeMembers]
      intro member inside
      rcases List.mem_cons.mp inside with rfl | further
      · rw [Tree.number_place]
        exact ⟨parent?_of_nodes top, holds_place first (first + 1) value
          (Array.getElem?_eq_some_iff.mp top).1 (content_of_nodes top) below⟩
      · exact holds_placeMembers (first + value.size) parent rest later member further

end

/-- A value that is laid out somewhere is held there, below the parent it was given. -/
theorem holds_ofJson {document : Document} {first : NodeId} {parent? : Option NodeId}
    {value : Json} (lays : document.Lays first (layOut first parent? value)) :
    document.Holds (Tree.ofJson first value) ∧ document.parent? first = parent? := by
  rw [layOut_eq] at lays
  obtain ⟨top, below⟩ := lays.cons
  exact ⟨holds_place first (first + 1) value (Array.getElem?_eq_some_iff.mp top).1
    (content_of_nodes top) below, parent?_of_nodes top⟩

end Document

end TemplateFill
