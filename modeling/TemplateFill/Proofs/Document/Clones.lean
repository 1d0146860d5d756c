import TemplateFill.Proofs.Document.InPlace
import TemplateFill.Proofs.Document.Reachable
import TemplateFill.Proofs.Document.Regions
import TemplateFill.Proofs.Document.Selection

/-!
Clones.

A clone is made node by node: a place for the copy first, then the copies of the children, and then
the list of them. The table grows in between, but what stands in it stays, so the copies get the
numbers of a layout of the value. The clone is a region of its own: edits of its nodes leave the
original alone, and edits of other nodes leave the clone alone.
-/

namespace TemplateFill

open Document (root contentOf layOut layOutElements layOutMembers layOutChildren numberElements
  numberMembers nodes_setContent nodes_extend size_extend)

/-! ### Node by node -/

namespace InPlace

def push (node : Node) : InPlace NodeId := do
  let number := (← get).size
  modify fun document => document.extend [node]
  return number

mutual

def place (parent? : Option NodeId) : Json → InPlace NodeId
  | .scalar value => do
      let node ← push ⟨parent?, .scalar .null⟩
      setContent node (.scalar value)
      return node
  | .array elements => do
      let node ← push ⟨parent?, .scalar .null⟩
      let children ← placeElements node elements
      setContent node (.array children)
      return node
  | .object members => do
      let node ← push ⟨parent?, .scalar .null⟩
      let children ← placeMembers node members
      setContent node (.object children)
      return node

def placeElements (parent : NodeId) : List Json → InPlace (List NodeId)
  | [] => return []
  | element :: rest => do
      let child ← place (some parent) element
      let others ← placeElements parent rest
      return child :: others

def placeMembers (parent : NodeId) : List (String × Json) → InPlace (List (String × NodeId))
  | [] => return []
  | (key, value) :: rest => do
      let child ← place (some parent) value
      let others ← placeMembers parent rest
      return (key, child) :: others

end

/-- Copies the tree below a node, cut off at the given depth. A copy gets its content when those of
the children have theirs. -/
def cloneUnder : Nat → Option NodeId → NodeId → InPlace NodeId
  | 0, parent?, _ => push ⟨parent?, .scalar .null⟩
  | depth + 1, parent?, source => do
      let copy ← push ⟨parent?, .scalar .null⟩
      let content ← match (← get).content source with
        | .scalar value => pure (Content.scalar value)
        | .array elements => do
            let copies ← elements.mapM fun element => cloneUnder depth (some copy) element
            pure (Content.array copies)
        | .object members => do
            let copies ← members.mapM fun member => do
              let below ← cloneUnder depth (some copy) member.2
              return (member.1, below)
            pure (Content.object copies)
      setContent copy content
      return copy

theorem push_eq (node : Node) (document : Document) :
    push node document = .ok document.size (document.extend [node]) :=
  rfl

theorem extend_extend (document : Document) (first second : List Node) :
    (document.extend first).extend second = document.extend (first ++ second) := by
  simp [Document.extend]

/-- A place that gets its content behind its children is laid out before them. -/
theorem setContent_extend (document : Document) (parent? : Option NodeId) (hole content : Content)
    (below : List Node) :
    ((document.extend [⟨parent?, hole⟩]).extend below).setContent document.size content =
      document.extend (⟨parent?, content⟩ :: below) := by
  have same : ∀ other : NodeId,
      (((document.extend [⟨parent?, hole⟩]).extend below).setContent document.size
          content).nodes[other]? =
        (document.extend (⟨parent?, content⟩ :: below)).nodes[other]? := by
    intro other
    rw [nodes_setContent, extend_extend, nodes_extend, nodes_extend]
    by_cases old : other < document.size
    · rw [if_neg (Nat.ne_of_gt old), if_pos old, if_pos old]
    · rw [if_neg old, if_neg old]
      by_cases here : document.size = other
      · subst here
        rw [if_pos rfl, Nat.sub_self]
        rfl
      · obtain ⟨more, split⟩ :=
          Nat.exists_eq_add_of_lt (Nat.lt_of_le_of_ne (Nat.le_of_not_lt old) here)
        rw [if_neg here, split, Nat.add_assoc, Nat.add_sub_cancel_left]
        rfl
  exact congrArg Document.mk (Array.ext_getElem? same)

theorem setContent_layOut (document : Document) (parent? : Option NodeId) (hole : Content)
    (value : Json) :
    ((document.extend [⟨parent?, hole⟩]).extend
        (layOutChildren (document.size + 1) document.size value)).setContent document.size
          (contentOf (document.size + 1) value) =
      document.extend (layOut document.size parent? value) := by
  rw [setContent_extend, Document.layOut_eq]

mutual

theorem place_eq (parent? : Option NodeId) (document : Document) :
    ∀ value, place parent? value document =
      .ok document.size (document.extend (layOut document.size parent? value))
  | .scalar value => by
      rw [place, bind_of_ok (push_eq ..), ← setContent_layOut]
      rfl
  | .array elements => by
      rw [place, bind_of_ok (push_eq ..), bind_of_ok (placeElements_eq ..), size_extend,
        ← setContent_layOut]
      rfl
  | .object members => by
      rw [place, bind_of_ok (push_eq ..), bind_of_ok (placeMembers_eq ..), size_extend,
        ← setContent_layOut]
      rfl

theorem placeElements_eq (parent : NodeId) (document : Document) :
    ∀ elements, placeElements parent elements document =
      .ok (numberElements document.size elements)
        (document.extend (layOutElements document.size parent elements))
  | [] => by
      rw [placeElements, numberElements, layOutElements, Document.extend, Array.append_empty]
      rfl
  | element :: rest => by
      rw [placeElements, bind_of_ok (place_eq ..), bind_of_ok (placeElements_eq ..), size_extend,
        Document.length_layOut, extend_extend, numberElements, layOutElements]
      rfl

theorem placeMembers_eq (parent : NodeId) (document : Document) :
    ∀ members, placeMembers parent members document =
      .ok (numberMembers document.size members)
        (document.extend (layOutMembers document.size parent members))
  | [] => by
      rw [placeMembers, numberMembers, layOutMembers, Document.extend, Array.append_empty]
      rfl
  | (key, value) :: rest => by
      rw [placeMembers, bind_of_ok (place_eq ..), bind_of_ok (placeMembers_eq ..), size_extend,
        Document.length_layOut, extend_extend, numberMembers, layOutMembers]
      rfl

end

section Copies

variable {copy : NodeId} {program : NodeId → InPlace NodeId}

/-- A program that lays out the values of some held trees below a copy, one by one. -/
private def LaysOut (copy : NodeId) (program : NodeId → InPlace NodeId) (tree : Tree) : Prop :=
  ∀ document : Document, document.Holds tree → program tree.number document =
    .ok document.size (document.extend (layOut document.size (some copy) tree.toJson))

private theorem mapM_elements (trees : List Tree)
    (each : ∀ tree ∈ trees, LaysOut copy program tree) :
    ∀ document : Document, (∀ tree ∈ trees, document.Holds tree) →
      ((trees.map Tree.number).mapM program) document =
        .ok (numberElements document.size (trees.map Tree.toJson))
          (document.extend (layOutElements document.size copy (trees.map Tree.toJson))) := by
  induction trees with
  | nil =>
      intro document _
      rw [List.map_nil, List.map_nil, List.mapM_nil, layOutElements, Document.extend,
        Array.append_empty]
      rfl
  | cons tree rest ih =>
      intro document held
      obtain ⟨here, others⟩ := List.forall_mem_cons.mp held
      obtain ⟨first, later⟩ := List.forall_mem_cons.mp each
      have second := ih later (document.extend (layOut document.size (some copy) tree.toJson))
        fun other inside => (others other inside).extend _
      rw [List.map_cons, List.map_cons, List.mapM_cons, bind_of_ok (first document here),
        bind_of_ok second, size_extend, Document.length_layOut, extend_extend, numberElements,
        layOutElements]
      rfl

private theorem mapM_members (members : List (String × Tree))
    (each : ∀ tree ∈ members.map Prod.snd, LaysOut copy program tree) :
    ∀ document : Document, (∀ tree ∈ members.map Prod.snd, document.Holds tree) →
      let values := members.map fun member => (member.1, member.2.toJson)
      ((members.map fun member : String × Tree => (member.1, member.2.number)).mapM
          fun member : String × NodeId => do
            let below ← program member.2
            return (member.1, below)) document =
        .ok (numberMembers document.size values)
          (document.extend (layOutMembers document.size copy values)) := by
  induction members with
  | nil =>
      intro document _ values
      rw [List.map_nil, List.mapM_nil, show values = [] from rfl, layOutMembers, Document.extend,
        Array.append_empty]
      rfl
  | cons member rest ih =>
      obtain ⟨key, tree⟩ := member
      intro document held values
      obtain ⟨here, others⟩ := List.forall_mem_cons.mp held
      obtain ⟨first, later⟩ := List.forall_mem_cons.mp each
      have second := ih later (document.extend (layOut document.size (some copy) tree.toJson))
        fun other inside => (others other inside).extend _
      rw [List.map_cons, show values = _ from List.map_cons .., List.mapM_cons, bind_assoc,
        bind_of_ok (first document here), pure_bind, bind_of_ok second, size_extend,
        Document.length_layOut, extend_extend, numberMembers, layOutMembers]
      rfl

end Copies

/-- Copying a held tree node by node lays out its value. -/
theorem cloneUnder_eq (tree : Tree) : ∀ depth, tree.numbers.length ≤ depth →
    ∀ (document : Document) (parent? : Option NodeId), document.Holds tree →
      cloneUnder depth parent? tree.number document =
        .ok document.size (document.extend (layOut document.size parent? tree.toJson)) := by
  induction tree using Tree.induction with
  | step tree ih =>
      intro depth enough document parent? holds
      cases depth with
      | zero =>
          rw [Tree.numbers_eq] at enough
          cases enough
      | succ depth =>
          have later := holds.extend [⟨parent?, .scalar .null⟩]
          have below : ∀ child ∈ tree.children,
              LaysOut document.size (cloneUnder depth (some document.size)) child := by
            intro child inside between held
            have shorter := Nat.lt_of_lt_of_le (Tree.length_numbers_lt inside) enough
            exact ih child inside depth (Nat.le_of_lt_succ shorter) between _ held
          rw [cloneUnder, bind_of_ok (push_eq ..), get_bind, later.content]
          cases tree with
          | scalar number value =>
              rw [Tree.toJson, ← setContent_layOut]
              rfl
          | array number elements =>
              have copies := mapM_elements elements below _ fun child inside =>
                later.of_mem_children inside
              rw [Tree.toJson, ← setContent_layOut]
              dsimp only [Tree.content]
              rw [bind_of_ok copies, size_extend]
              rfl
          | object number members =>
              have copies := mapM_members members below _ fun child inside =>
                later.of_mem_children inside
              rw [Tree.toJson, ← setContent_layOut]
              dsimp only [Tree.content]
              rw [bind_of_ok copies, size_extend]
              rfl

end InPlace

namespace Document

variable {document : Document}

/-! ### Clones and the rest -/

/-- The node behind all of a document is on top of a clone of one of them, and nothing else is
new. -/
structure IsClone (document after : Document) (node copy : NodeId) : Prop where
  number : copy = document.size
  unlinked : after.parent? copy = none
  detached : after.isAttached copy = false
  /-- The new nodes are those of the clone, numbered in preorder. -/
  preorder : after.view.descendants copy = List.range' document.size (after.size - document.size)
  value : after.nodeToJson copy = document.nodeToJson node
  kept : ∀ old < document.size, after.nodes[old]? = document.nodes[old]? ∧
    after.nodeToJson old = document.nodeToJson old

/-- Behind a history of edits some nodes are what they were, and so are the values below them. -/
def Spares (document : Document) (edits : List Edit) (spared : NodeId → Prop) : Prop :=
  ∀ node, spared node → (document.run edits).nodes[node]? = document.nodes[node]? ∧
    (document.run edits).nodeToJson node = document.nodeToJson node

theorem WellFormed.spares (wellFormed : document.WellFormed) {region spared : NodeId → Prop}
    (isSealed : document.Sealed region) {edits : List Edit}
    (inside : ∀ edit ∈ edits, ∀ node ∈ edit.nodes, region node)
    (outside : ∀ node, spared node → node < document.size ∧ ¬region node) :
    document.Spares edits spared := by
  intro node here
  have within := isSealed.run inside
  obtain ⟨present, apart⟩ := outside node here
  exact ⟨within.kept node apart, within.nodeToJson isSealed wellFormed present apart⟩

theorem sealed_new (document : Document) : document.Sealed (document.size ≤ ·) :=
  { children := fun node beyond child directly => by
      rw [children_of_size_le beyond] at directly
      cases directly
    parents := fun node parent beyond link =>
      absurd (lt_size_of_parent? link) (Nat.not_lt.mpr beyond)
    fresh := fun node beyond => beyond }

theorem WellFormed.sealed_old (wellFormed : document.WellFormed) (nodes : List Node) :
    (document.extend nodes).Sealed
      fun node => node < document.size ∨ (document.extend nodes).size ≤ node := by
  refine ⟨fun node inside child directly => ?_, fun node parent inside link => ?_,
    fun node beyond => Or.inr beyond⟩
  · rcases inside with old | beyond
    · rw [children, content_extend old] at directly
      exact Or.inl (wellFormed.child directly).2.1
    · rw [children_of_size_le beyond] at directly
      cases directly
  · rcases inside with old | beyond
    · rw [parent?_extend old] at link
      exact Or.inl (wellFormed.parent_present link)
    · exact absurd (lt_size_of_parent? link) (Nat.not_lt.mpr beyond)

theorem WellFormed.isClone (wellFormed : document.WellFormed) (node : NodeId) :
    IsClone document (document.deepClone node).1 node (document.deepClone node).2 := by
  obtain ⟨held, unlinked⟩ := holds_insert document none (document.nodeToJson node)
  have size := @size_insert document none (document.nodeToJson node)
  have after := wellFormed.insert (document.nodeToJson node)
  have top : (Tree.ofJson document.size (document.nodeToJson node)).number = document.size :=
    Tree.number_place ..
  have longer := document.sealed_new.deepClone node
  refine
    { number := rfl
      unlinked
      detached := ?_
      preorder := ?_
      value := ?_
      kept := fun old present => ⟨longer.kept old (Nat.not_le.mpr present),
        longer.nodeToJson document.sealed_new wellFormed present (Nat.not_le.mpr present)⟩ }
  · rw [Bool.eq_false_iff]
    intro attached
    obtain ⟨levels, above⟩ := (after.isAttached_iff_ancestor? _).mp attached
    cases levels with
    | zero => exact absurd (Option.some.inj above) (Nat.ne_of_gt wellFormed.rooted)
    | succ levels =>
        rw [deepClone, ancestor?, show (document.insert none _).2 = document.size from rfl,
          unlinked] at above
        cases above
  · have numbers := after.descendants_eq held
    rw [top, Tree.numbers_ofJson] at numbers
    rw [deepClone, size, Nat.add_sub_cancel_left]
    exact numbers
  · have read := after.nodeToJson_eq held
    rw [top] at read
    exact read.trans (Tree.toJson_place ..)

/-- Copying node by node makes a clone of every node of a well-formed document. Edits of nodes of the
clone, or of nodes that came after it, leave all that was there before as it was, and edits that name
no node of the clone leave it as it was. Laying out a value node by node numbers it in preorder, and
nothing of it is lost. -/
theorem deepClone_independent (wellFormed : document.WellFormed) {node : NodeId}
    (present : node < document.size) :
    let after := (document.deepClone node).1
    let copy := (document.deepClone node).2
    InPlace.cloneUnder document.size none node document = .ok copy after ∧
      IsClone document after node copy ∧
      (∀ edits : List Edit, (∀ edit ∈ edits, ∀ named ∈ edit.nodes, copy ≤ named) →
        after.Spares edits (· < copy)) ∧
      (∀ edits : List Edit,
        (∀ edit ∈ edits, ∀ named ∈ edit.nodes, named < copy ∨ after.size ≤ named) →
        after.Spares edits fun copied => copy ≤ copied ∧ copied < after.size) ∧
      ∀ value, InPlace.place none value ⟨#[]⟩ = .ok root (ofJson value) ∧
        (ofJson value).view.descendants root = List.range (ofJson value).size ∧
        (ofJson value).toJson = value := by
  intro after copy
  have longer : Within (document.size ≤ ·) document after := document.sealed_new.deepClone node
  have afterWF : after.WellFormed := wellFormed.insert (document.nodeToJson node)
  refine ⟨?_, wellFormed.isClone node, fun edits named => ?_, fun edits named => ?_,
    fun value => ⟨?_, ?_, toJson_ofJson value⟩⟩
  · obtain ⟨tree, rfl, holds⟩ := wellFormed.grounded present
    rw [InPlace.cloneUnder_eq tree _ (wellFormed.length_numbers_le holds) document none holds,
      ← wellFormed.nodeToJson_eq holds]
    rfl
  · exact afterWF.spares longer.isSealed named fun old before =>
      ⟨Nat.lt_of_lt_of_le before longer.grows, Nat.not_le.mpr before⟩
  · refine afterWF.spares (wellFormed.sealed_old _) named fun copied ⟨low, high⟩ => ⟨high, ?_⟩
    rintro (old | beyond)
    · exact Nat.not_lt.mpr low old
    · exact Nat.not_lt.mpr beyond high
  · rw [InPlace.place_eq]
    simp [ofJson, Document.extend, Document.size, root]
  · have numbers := (ofJson_wellFormed value).descendants_eq (ofJson_holds value)
    rw [show (Tree.ofJson root value).number = root from Tree.number_place .., Tree.numbers_ofJson,
      ← size_ofJson] at numbers
    rw [numbers, List.range_eq_range']
    rfl

/-- A clone of an element: renamed and put under its own value it leaves the element alone, and
taking the element apart leaves the clone alone. -/
theorem deepClone_independent_element :
    let element : Json := .object [("idShort", .text "A"), ("value", .array [.integer 1])]
    let document := ofJson (.object [("submodelElements", .array [element])])
    let after := (document.deepClone 2).1
    let ofClone := [Edit.setMember 6 "idShort" (.text "A_0"), .appendChild 8 6]
    let ofOriginal := [Edit.renameKey 2 "idShort" "name", .removeNode 5, .deepClone 0]
    document.WellFormed ∧ 2 < document.size ∧ IsClone document after 2 6 ∧
      (∀ edit ∈ ofClone, ∀ named ∈ edit.nodes, 6 ≤ named) ∧
      (∀ edit ∈ ofOriginal, ∀ named ∈ edit.nodes, named < 6 ∨ after.size ≤ named) ∧
      (after.run ofClone).nodeToJson 2 = element ∧ (after.run ofOriginal).nodeToJson 6 = element := by
  intro element document after ofClone ofOriginal
  have wellFormed : document.WellFormed := ofJson_wellFormed _
  have present : 2 < document.size := by decide
  have inClone : ∀ edit ∈ ofClone, ∀ named ∈ edit.nodes, 6 ≤ named := by decide
  have elsewhere : ∀ edit ∈ ofOriginal, ∀ named ∈ edit.nodes, named < 6 ∨ after.size ≤ named := by
    decide
  obtain ⟨_, isClone, sparesOld, sparesClone, _⟩ := deepClone_independent wellFormed present
  have read : document.nodeToJson 2 = element := by rfl
  refine ⟨wellFormed, present, isClone, inClone, elsewhere, ?_, ?_⟩
  · rw [(sparesOld ofClone inClone 2 (by decide)).2, (isClone.kept 2 present).2, read]
  · rw [(sparesClone ofOriginal elsewhere 6 (by decide)).2]
    exact isClone.value.trans read

end Document

end TemplateFill
