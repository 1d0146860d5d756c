import TemplateFill.Proofs.Document.InPlace
import TemplateFill.Proofs.Document.Places
import TemplateFill.Proofs.Results

/-!
Edits of documents as edits of values.

Every edit names one node, and does to the document what an edit of plain JSON does to the value at
the place of that node. Nodes that the root does not lead to have no place, and editing them leaves
the value as it was. An edit that is refused leaves no trace, in the nodes either.
-/

namespace TemplateFill

/-! ### Edits of values -/

namespace Json

def setMember (key : String) (member : Json) : Json → Json
  | .object members => .object (putMember key member members)
  | other => other

def removeMember (key : String) : Json → Json
  | .object members => .object (members.eraseP fun member => member.1 == key)
  | other => other

def removeChild (position : Nat) : Json → Json
  | .scalar value => .scalar value
  | .array elements => .array (elements.eraseIdx position)
  | .object members => .object (members.eraseIdx position)

def append (element : Json) : Json → Json
  | .array elements => .array (elements ++ [element])
  | other => other

def renameKey (before after : String) : Json → Json
  | .object members => .object (Document.renameMember before after members)
  | other => other

end Json

namespace Edit

/-- The node whose value an edit changes. A node is removed from its parent's value. -/
def site? (document : Document) : Edit → Option NodeId
  | .deepClone _ => none
  | .replaceValue node _ => some node
  | .setMember object _ _ => some object
  | .removeMember object _ => some object
  | .removeNode node => document.parent? node
  | .appendChild array _ => some array
  | .renameKey object _ _ => some object

/-- What an edit does to the value of its node. -/
def change (document : Document) : Edit → Json → Json
  | .deepClone _ => id
  | .replaceValue _ value => fun _ => value
  | .setMember _ key value => .setMember key value
  | .removeMember _ key => .removeMember key
  | .removeNode node =>
      match document.parent? node with
      | none => id
      | some parent => .removeChild ((document.children parent).idxOf node)
  | .appendChild _ child => .append (document.nodeToJson child)
  | .renameKey _ before after => .renameKey before after

/-- The second document has the value of the first, edited at the place of the edit's node. -/
structure Refines (edit : Edit) (document edited : Document) : Prop where
  placed : ∀ node, edit.site? document = some node → document.isAttached node = true →
    ∃ steps, document.follow? Document.root steps = some node
  changed : ∀ node steps, edit.site? document = some node →
    document.follow? Document.root steps = some node →
      edited.toJson = document.toJson.editAt (edit.change document) steps
  kept : (∀ node, edit.site? document = some node → document.isAttached node = false) →
    edited.toJson = document.toJson

end Edit

namespace Document

variable {document edited : Document} {edit : Edit} {site subtree : Tree}

/-! ### Edits of one node -/

/-- What lies above a node of the tree below the root is in that tree too. -/
theorem WellFormed.mem_numbers_of_mem_numbers (wellFormed : document.WellFormed)
    (holds : document.Holds site) (top : site.number = root) {levels : Nat} {node above : NodeId}
    (inside : node ∈ site.numbers) (found : document.ancestor? node levels = some above) :
    above ∈ site.numbers := by
  induction levels generalizing node with
  | zero =>
      cases found
      exact inside
  | succ levels ih =>
      rw [ancestor?] at found
      rcases holds.parent_mem inside with same | ⟨parent, within, link⟩
      · rw [same, top, wellFormed.rootless] at found
        cases found
      · rw [link] at found
        exact ih within found

/-- A change of one node refines an edit if it changes the value at the node of the edit. -/
theorem EditAt.refines (editAt : EditAt document edited subtree)
    (wellFormed : document.WellFormed) (holds : document.Holds site)
    (lower : subtree.number ∈ site.numbers) (sited : edit.site? document = some site.number)
    (changed : edit.change document site.toJson = (site.graft subtree).toJson) :
    edit.Refines document edited := by
  obtain ⟨tree, top, treeHolds⟩ := wellFormed.grounded wellFormed.rooted
  have before : document.toJson = tree.toJson := by
    rw [toJson, ← top, wellFormed.nodeToJson_eq treeHolds]
  have after : edited.toJson = (tree.graft subtree).toJson := by
    have read := (editAt.wellFormed wellFormed).nodeToJson_eq (editAt.holds_graft treeHolds)
    rwa [Tree.number_graft, top] at read
  refine ⟨fun node named attached => ?_, fun node steps named leads => ?_, fun detached => ?_⟩
  · rw [wellFormed.isAttached_iff treeHolds top] at attached
    obtain ⟨below, within, rfl⟩ := Tree.exists_of_mem_numbers attached
    rw [← top]
    exact Tree.exists_follow? treeHolds within
  · rw [sited] at named
    cases named
    rw [← top] at leads
    rw [before, after]
    exact Tree.toJson_graft_of_follow? wellFormed treeHolds leads holds lower changed
  · have outside := detached site.number sited
    have absent : subtree.number ∉ tree.numbers := by
      intro inside
      obtain ⟨levels, above⟩ := holds.ancestor? lower
      have attached := (wellFormed.isAttached_iff treeHolds top site.number).mpr
        (wellFormed.mem_numbers_of_mem_numbers treeHolds top inside above)
      rw [attached] at outside
      cases outside
    rw [before, after, Tree.graft_of_not_mem absent]

theorem EditAt.refines_of_eq (editAt : EditAt document edited subtree)
    (wellFormed : document.WellFormed) (holds : document.Holds site)
    (same : site.number = subtree.number) (sited : edit.site? document = some site.number)
    (changed : edit.change document site.toJson = subtree.toJson) :
    edit.Refines document edited := by
  refine editAt.refines wellFormed holds ?_ sited ?_
  · rw [← same]
    exact site.number_mem_numbers
  · rwa [Tree.graft_of_eq same]

theorem WellFormed.editAt_self (wellFormed : document.WellFormed) (holds : document.Holds site) :
    EditAt document document site :=
  { present := holds.present
    grows := Nat.le_refl _
    held := holds
    contents := fun _ _ _ => rfl
    links := fun _ _ outside =>
      (if_neg fun above => outside (wellFormed.mem_children holds above)).symm
    taken := fun _ inside =>
      Or.inr ⟨wellFormed.ne_root (holds.linked inside), Or.inl (holds.linked inside)⟩
    apart := wellFormed.nodup_children holds
    fresh := fun _ new bounded => absurd bounded (Nat.not_lt.mpr new) }

theorem refines_of_toJson (none : edit.site? document = none)
    (same : edited.toJson = document.toJson) : edit.Refines document edited := by
  refine ⟨fun node named => ?_, fun node _ named => ?_, fun _ => same⟩
  · rw [none] at named
    cases named
  · rw [none] at named
    cases named

/-! ### Members -/

theorem putMember_of_none {α : Type} {key : String} {members : List (String × α)} (value : α)
    (missing : memberOf? key members = none) :
    putMember key value members = members ++ [(key, value)] := by
  induction members with
  | nil => rfl
  | cons member rest ih =>
      obtain ⟨name, first⟩ := member
      rw [memberOf?] at missing
      rw [putMember]
      split at missing
      · cases missing
      · rename_i different
        rw [if_neg different, ih missing]
        rfl

theorem putMember_map {α β : Type} (key : String) (change : α → β) (value : α)
    (members : List (String × α)) :
    putMember key (change value) (members.map fun member => (member.1, change member.2)) =
      (putMember key value members).map fun member => (member.1, change member.2) := by
  induction members with
  | nil => rfl
  | cons member rest ih =>
      simp only [List.map_cons, putMember]
      split
      · rfl
      · rw [List.map_cons, ih]

theorem graft_eq_putMember {key : String} {members : List (String × Tree)} {child : Tree}
    (found : memberOf? key members = some child) (same : child.number = subtree.number)
    (distinct : (members.map fun member => member.2.number).Nodup)
    (outside : ∀ member ∈ members, member.2.number ≠ subtree.number →
      subtree.number ∉ member.2.numbers) :
    (members.map fun member => (member.1, member.2.graft subtree)) =
      putMember key subtree members := by
  induction members with
  | nil => cases found
  | cons member rest ih =>
      obtain ⟨name, first⟩ := member
      rw [List.map_cons, List.nodup_cons] at distinct
      rw [memberOf?] at found
      rw [List.map_cons, putMember]
      split at found
      · rename_i named
        cases found
        rw [if_pos named, Tree.graft_of_eq same]
        refine congrArg (List.cons _) ((List.map_congr_left fun other later => ?_).trans
          (List.map_id _))
        have different : other.2.number ≠ subtree.number := by
          intro equal
          exact distinct.1 (List.mem_map.mpr ⟨other, later, equal.trans same.symm⟩)
        rw [Tree.graft_of_not_mem (outside other (List.mem_cons_of_mem _ later) different)]
        rfl
      · rename_i named
        have different : first.number ≠ subtree.number := by
          intro equal
          exact distinct.1 (List.mem_map.mpr ⟨_, mem_of_memberOf? found, same.trans equal.symm⟩)
        rw [if_neg named, Tree.graft_of_not_mem (outside _ (List.mem_cons_self ..) different),
          ih found distinct.2 fun other later => outside other (List.mem_cons_of_mem _ later)]

/-- A tree that takes the place of a member is that member. -/
theorem WellFormed.graft_member (wellFormed : document.WellFormed) {object : NodeId}
    {members : List (String × Tree)} (holds : document.Holds (.object object members))
    {key : String} {child : Tree} (found : memberOf? key members = some child)
    (same : child.number = subtree.number) :
    (Tree.object object members).graft subtree =
      .object object (putMember key subtree members) := by
  have inside : child ∈ (Tree.object object members).children :=
    List.mem_map_of_mem (mem_of_memberOf? found)
  have apart : (Tree.object object members).number ≠ subtree.number := by
    rw [← same]
    exact (holds.ne_of_mem_child inside child.number_mem_numbers).symm
  have distinct := wellFormed.nodup_children holds
  rw [Tree.children, List.map_map] at distinct
  rw [Tree.graft_of_ne apart, Tree.mapChildren, graft_eq_putMember found same distinct]
  intro other within different shared
  exact holds.disjoint_children (List.mem_map_of_mem within) inside (by rwa [same]) shared
    (same ▸ child.number_mem_numbers)

theorem filter_eq_eraseP {key : String} {members : List (String × Tree)} {child : Tree}
    (found : memberOf? key members = some child)
    (distinct : (members.map fun member => member.2.number).Nodup) :
    (members.filter fun member => member.2.number != child.number) =
      members.eraseP fun member => member.1 == key := by
  obtain ⟨before, after, rfl, others⟩ := memberOf?_eq_some_iff.mp found
  have listed : (before ++ (key, child) :: after)[before.length]? = some (key, child) := by simp
  rw [Tree.filter_eq_eraseIdx (fun member => member.2.number) distinct listed,
    List.eraseP_append_right _ (by simpa using others), List.eraseP_cons_of_pos (by simp),
    List.eraseIdx_append_of_length_le (Nat.le_refl _)]
  simp

/-! ### The edits -/

section Edits

variable (wellFormed : document.WellFormed)
include wellFormed

theorem refines_deepClone (node : NodeId) :
    (Edit.deepClone node).Refines document (document.deepClone node).1 := by
  obtain ⟨tree, top, holds⟩ := wellFormed.grounded wellFormed.rooted
  have before := wellFormed.nodeToJson_eq holds
  have after := (wellFormed.insert (document.nodeToJson node)).nodeToJson_eq
    (holds.insert none (document.nodeToJson node))
  rw [top] at before after
  exact refines_of_toJson rfl (after.trans before.symm)

theorem refines_replaceValue {node : NodeId} (present : node < document.size) (value : Json) :
    (Edit.replaceValue node value).Refines document (document.replaceValue node value) := by
  obtain ⟨site, rfl, holds⟩ := wellFormed.grounded present
  exact (replaceValue_editAt wellFormed present value).refines_of_eq wellFormed holds
    (Tree.number_place ..).symm rfl (Tree.toJson_place ..).symm

theorem refines_setMember_of_some {object member : NodeId} {key : String}
    (found : document.member? key object = some member) (value : Json) :
    (Edit.setMember object key value).Refines document (document.replaceValue member value) := by
  obtain ⟨listed, recorded⟩ : ∃ listed, document.content object = .object listed := by
    rw [Document.member?] at found
    split at found
    · exact ⟨_, ‹_›⟩
    · cases found
  obtain ⟨members, holds, rfl⟩ := wellFormed.exists_object recorded
  obtain ⟨child, held, rfl⟩ := Option.map_eq_some_iff.mp ((holds.member? key).symm.trans found)
  have inside : child ∈ (Tree.object object members).children :=
    List.mem_map_of_mem (mem_of_memberOf? held)
  have numbered := Tree.number_place child.number document.size value
  have lower : child.number ∈ (Tree.object object members).numbers :=
    Tree.numbers_subset (Tree.child_mem_preorder inside) child.number_mem_numbers
  refine (replaceValue_editAt wellFormed (holds.of_mem_children inside).present value).refines
    wellFormed holds (by rwa [numbered]) rfl ?_
  rw [wellFormed.graft_member holds held numbered.symm, Tree.toJson, Tree.toJson]
  refine congrArg Json.object (Eq.trans ?_ (putMember_map key Tree.toJson _ members))
  rw [Tree.toJson_place]

theorem refines_setMember_of_none {object : NodeId} {members : List (String × Tree)} {key : String}
    (holds : document.Holds (.object object members))
    (missing : document.member? key object = none) (value : Json) :
    (Edit.setMember object key value).Refines document
      (document.appendMember object (members.map fun member => (member.1, member.2.number))
        key value) := by
  refine (appendMember_editAt wellFormed holds key value).refines_of_eq wellFormed holds rfl rfl ?_
  have absent : memberOf? key members = none :=
    Option.map_eq_none_iff.mp ((holds.member? key).symm.trans missing)
  rw [Tree.toJson, Tree.toJson, List.map_append]
  refine congrArg Json.object ((putMember_of_none value ?_).trans ?_)
  · rw [memberOf?_map, absent]
    rfl
  · rw [List.map_singleton, Tree.ofJson, Tree.toJson_place]

theorem refines_setMember {object member : NodeId} {key : String} {value : Json}
    (done : document.setMember object key value = .ok (edited, member)) :
    (Edit.setMember object key value).Refines document edited := by
  obtain ⟨found, rfl⟩ | ⟨missing, rfl, listed, recorded, rfl⟩ := setMember_cases done
  · exact refines_setMember_of_some wellFormed found value
  · obtain ⟨members, holds, rfl⟩ := wellFormed.exists_object recorded
    exact refines_setMember_of_none wellFormed holds missing value

/-- A child that is left out leaves the value without the child at its position. -/
theorem toJson_filterChildren (holds : document.Holds site) {child : Tree}
    (inside : child ∈ site.children) :
    (site.filterChildren fun other => other.number != child.number).toJson =
      site.toJson.removeChild ((document.children site.number).idxOf child.number) := by
  have nodup := wellFormed.nodup_children holds
  obtain ⟨position, found⟩ := List.mem_iff_getElem?.mp inside
  have here : (document.children site.number).idxOf child.number = position := by
    obtain ⟨bounded, same⟩ := List.getElem?_eq_some_iff.mp found
    have first := nodup.idxOf_getElem position (by rwa [List.length_map])
    rwa [List.getElem_map, same, ← holds.children] at first
  rw [here]
  cases site with
  | scalar number value => cases inside
  | array number elements =>
      rw [Tree.children] at found nodup
      rw [Tree.filterChildren, Tree.toJson, Tree.toJson, Json.removeChild,
        Tree.filter_eq_eraseIdx Tree.number nodup found, List.eraseIdx_map]
  | object number members =>
      rw [Tree.children, List.getElem?_map, Option.map_eq_some_iff] at found
      obtain ⟨member, found, rfl⟩ := found
      rw [Tree.children, List.map_map] at nodup
      rw [Tree.filterChildren, Tree.toJson, Tree.toJson, Json.removeChild,
        Tree.filter_eq_eraseIdx (fun member => member.2.number) nodup found, List.eraseIdx_map]

theorem refines_removeNode (node : NodeId) :
    (Edit.removeNode node).Refines document (document.removeNode node) := by
  cases link : document.parent? node with
  | none =>
      rw [removeNode_of_none link]
      exact refines_of_toJson link rfl
  | some parent =>
      obtain ⟨site, child, holds, inside, rfl, rfl⟩ := wellFormed.exists_above link
      refine (removeNode_editAt wellFormed holds inside).refines_of_eq wellFormed holds
        (Tree.number_filterChildren ..).symm link ?_
      rw [toJson_filterChildren wellFormed holds inside, Edit.change, link]

theorem refines_removeMember {object : NodeId} (present : object < document.size) (key : String) :
    (Edit.removeMember object key).Refines document (document.removeMember object key).1 := by
  obtain ⟨site, rfl, holds⟩ := wellFormed.grounded present
  rw [Document.removeMember, holds.member? key]
  cases found : site.member? key with
  | none =>
      refine (wellFormed.editAt_self holds).refines_of_eq wellFormed holds rfl rfl ?_
      cases site with
      | object number members =>
          rw [Tree.toJson]
          refine congrArg Json.object (List.eraseP_of_forall_not fun member inside named => ?_)
          obtain ⟨old, within, rfl⟩ := List.mem_map.mp inside
          refine memberOf?_eq_none_iff.mp found (List.mem_map.mpr ⟨old, within, ?_⟩)
          exact beq_iff_eq.mp named
      | _ => rw [Tree.toJson]; rfl
  | some child =>
      have inside := Tree.mem_children_of_member? found
      refine (removeNode_editAt wellFormed holds inside).refines_of_eq wellFormed holds
        (Tree.number_filterChildren ..).symm rfl ?_
      cases site with
      | object number members =>
          have nodup := wellFormed.nodup_children holds
          rw [Tree.children, List.map_map] at nodup
          rw [Tree.filterChildren, Tree.toJson, Tree.toJson, filter_eq_eraseP found nodup]
          exact congrArg Json.object List.eraseP_map
      | _ => cases found

theorem refines_appendChild {array child : NodeId} (given : child < document.size)
    (noLoop : ∀ levels, document.ancestor? array levels ≠ some child)
    (done : document.appendChild array child = .ok edited) :
    (Edit.appendChild array child).Refines document edited := by
  obtain ⟨elements, below, holds, held, rfl, edit⟩ :=
    wellFormed.exists_editAt_appendChild given noLoop done
  refine edit.refines_of_eq wellFormed holds rfl rfl ?_
  rw [Edit.change, wellFormed.nodeToJson_eq held, Tree.toJson, Tree.toJson, Json.append,
    List.map_append, List.map_singleton]

theorem refines_renameKey {object : NodeId} {before after : String} {present : Bool}
    (done : document.renameKey object before after = .ok (edited, present)) :
    (Edit.renameKey object before after).Refines document edited := by
  obtain ⟨listed, recorded, _, outcome⟩ := renameKey_cases done
  obtain ⟨members, holds, rfl⟩ := wellFormed.exists_object recorded
  have renamed : (Edit.renameKey object before after).change document
      (Tree.object object members).toJson =
        (Tree.object object (renameMember before after members)).toJson := by
    rw [Tree.toJson, Tree.toJson]
    exact congrArg Json.object (renameMember_map before after Tree.toJson members)
  obtain ⟨rfl, idle⟩ | ⟨_, rfl⟩ := outcome
  · rw [memberOf?_map, Option.map_eq_none_iff] at idle
    rw [renameMember_eq_self idle] at renamed
    exact (wellFormed.editAt_self holds).refines_of_eq wellFormed holds rfl rfl renamed
  · exact (renameMember_editAt wellFormed holds before after).refines_of_eq wellFormed holds
      rfl rfl renamed

theorem refines_attempt (allowed : document.Allows edit)
    (done : edit.attempt document = .ok edited) : edit.Refines document edited := by
  cases edit with
  | deepClone node =>
      cases done
      exact refines_deepClone wellFormed node
  | replaceValue node value =>
      cases done
      exact refines_replaceValue wellFormed allowed.1 value
  | setMember object key value =>
      obtain ⟨⟨_, member⟩, set, rfl⟩ := map_eq_ok.mp done
      exact refines_setMember wellFormed set
  | removeMember object key =>
      cases done
      exact refines_removeMember wellFormed allowed key
  | removeNode node =>
      cases done
      exact refines_removeNode wellFormed node
  | appendChild array child => exact refines_appendChild wellFormed allowed.2.1 allowed.2.2 done
  | renameKey object before after =>
      obtain ⟨⟨_, present⟩, renamed, rfl⟩ := map_eq_ok.mp done
      exact refines_renameKey wellFormed renamed

/-- An edit that is made in place is refused without a trace, or does to the value of the document
what it is to do, at the place of its node. -/
theorem perform_refines (allowed : document.Allows edit) :
    match edit.perform document with
    | .error failure after => edit.refusal? document = some failure ∧ after = document
    | .ok _ after => edit.refusal? document = none ∧ edit.Refines document after := by
  rw [edit.perform_eq document, edit.refusal?_eq document]
  cases done : edit.attempt document with
  | error failure => exact ⟨rfl, rfl⟩
  | ok edited => exact ⟨rfl, refines_attempt wellFormed allowed done⟩

end Edits

/-- A key is renamed in its place, two levels below the root. -/
theorem perform_refines_rename :
    let row (key : String) : Json := .object [("name", .text "a"), (key, .integer 1), ("z", .null)]
    let document := ofJson (.object [("rows", .array [.null, row "id"])])
    let edit : Edit := .renameKey 3 "id" "key"
    document.WellFormed ∧ document.Allows edit ∧
      ∃ after, edit.perform document = .ok () after ∧
        after.toJson = .object [("rows", .array [.null, row "key"])] := by
  intro row document edit
  have wellFormed : document.WellFormed := ofJson_wellFormed _
  have allowed : document.Allows edit := show 3 < document.size by decide
  have refines := perform_refines wellFormed allowed
  refine ⟨wellFormed, allowed, ?_⟩
  cases ran : edit.perform document with
  | error failure after =>
      rw [ran] at refines
      cases refines.1
  | ok _ after =>
      rw [ran] at refines
      have changed := refines.2.changed 3 [0, 1] rfl (by decide)
      rw [toJson_ofJson] at changed
      exact ⟨after, rfl, changed⟩

end Document

end TemplateFill
