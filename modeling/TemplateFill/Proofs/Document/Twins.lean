import TemplateFill.Document.Location
import TemplateFill.Proofs.Document.Members
import TemplateFill.Proofs.Document.Refinement
import TemplateFill.Proofs.Document.Reshape

/-!
Documents that are alike but for texts.

A twin of a document has the same nodes under the same parents, and the same contents with some
scalars replaced by texts. So nodes are attached in both or in neither, and lie at the same place.
If a member is set in both, to values that differ in texts only, the results are twins too.
-/

namespace TemplateFill

def Content.retext (text? : Option String) : Content → Content
  | .scalar value => .scalar (text?.elim value .string)
  | .array elements => .array elements
  | .object members => .object members

namespace Tree

theorem content_retext (texts : NodeId → Option String) (tree : Tree) :
    (tree.retext texts).content = tree.content.retext (texts tree.number) := by
  cases tree with
  | scalar number value =>
      rw [retext]
      rfl
  | array number elements =>
      rw [retext]
      have same : (elements.map fun element => element.retext texts).map Tree.number =
          elements.map Tree.number := by
        rw [List.map_map]
        exact List.map_congr_left fun element _ => number_retext texts element
      exact congrArg Content.array same
  | object number members =>
      rw [retext]
      have same : (members.map fun member => (member.1, member.2.retext texts)).map
          (fun member => (member.1, member.2.number)) =
          members.map fun member => (member.1, member.2.number) := by
        rw [List.map_map]
        exact List.map_congr_left fun member _ =>
          congrArg (Prod.mk member.1) (number_retext texts member.2)
      exact congrArg Content.object same

theorem retext_congr {first second : NodeId → Option String} {tree : Tree}
    (same : ∀ number ∈ tree.numbers, first number = second number) :
    tree.retext first = tree.retext second := by
  induction tree using Tree.induction with
  | step tree ih =>
      have below : ∀ child ∈ tree.children, child.retext first = child.retext second := by
        intro child inside
        apply ih child inside
        intro number within
        exact same number (mem_numbers_iff.mpr (.inr ⟨child, inside, within⟩))
      cases tree with
      | scalar number value =>
          rw [retext, retext, same number (number_mem_numbers _)]
      | array number elements =>
          rw [retext, retext]
          exact congrArg (Tree.array number) (List.map_congr_left below)
      | object number members =>
          rw [retext, retext]
          refine congrArg (Tree.object number) (List.map_congr_left ?_)
          intro member inside
          exact congrArg (Prod.mk member.1) (below member.2 (List.mem_map_of_mem inside))

end Tree

namespace Document

variable {texts other : NodeId → Option String} {document twin edited twinEdited : Document}
  {subtree : Tree}

/-- The second document is the first with texts in the place of scalars. -/
structure Twins (texts : NodeId → Option String) (document twin : Document) : Prop where
  size : twin.size = document.size
  parents : ∀ node, twin.parent? node = document.parent? node
  contents : ∀ node < document.size,
    twin.content node = (document.content node).retext (texts node)

namespace Twins

theorem refl (document : Document) : Twins (fun _ => none) document document := by
  refine ⟨rfl, fun _ => rfl, ?_⟩
  intro node _
  cases document.content node <;> rfl

/-! ### Reading -/

theorem exists_content (twins : Twins texts document twin) (node : NodeId) :
    ∃ text?, twin.content node = (document.content node).retext text? := by
  by_cases present : node < document.size
  · exact ⟨texts node, twins.contents node present⟩
  · have beyond := Nat.le_of_not_lt present
    rw [content_of_size_le (twins.size ▸ beyond), content_of_size_le beyond]
    exact ⟨none, rfl⟩

theorem member? (twins : Twins texts document twin) (key : String) (node : NodeId) :
    twin.member? key node = document.member? key node := by
  obtain ⟨text?, same⟩ := twins.exists_content node
  unfold Document.member?
  rw [same]
  cases document.content node <;> rfl

theorem topOf? (twins : Twins texts document twin) (node : NodeId) (levels : Nat) :
    twin.topOf? node levels = document.topOf? node levels := by
  induction levels generalizing node with
  | zero => rfl
  | succ levels ih =>
      rw [Document.topOf?, Document.topOf?, twins.parents]
      cases document.parent? node with
      | none => rfl
      | some parent => exact ih parent

theorem isAttached (twins : Twins texts document twin) (node : NodeId) :
    twin.isAttached node = document.isAttached node := by
  unfold Document.isAttached
  rw [twins.size, twins.topOf?]

theorem location? (twins : Twins texts document twin) (node : NodeId) :
    twin.location? node = document.location? node := by
  have steps : ∀ levels node behind,
      twin.locationBefore? levels node behind = document.locationBefore? levels node behind := by
    intro levels
    induction levels with
    | zero => exact fun _ _ => rfl
    | succ levels ih =>
        intro node behind
        rw [locationBefore?, locationBefore?, twins.parents]
        cases document.parent? node with
        | none => rfl
        | some parent =>
            obtain ⟨text?, same⟩ := twins.exists_content parent
            have step : stepTo? node (twin.content parent) =
                stepTo? node (document.content parent) := by
              rw [same]
              cases document.content parent <;> rfl
            dsimp only
            rw [step]
            cases stepTo? node (document.content parent) with
            | none => rfl
            | some here => exact ih parent _
  unfold Document.location?
  rw [twins.size, steps]

theorem holds (twins : Twins texts document twin) {tree : Tree} (holds : document.Holds tree) :
    twin.Holds (tree.retext texts) := by
  induction holds with
  | @intro tree present content linked below ih =>
      refine .intro ?_ ?_ ?_ ?_
      · rw [Tree.number_retext, twins.size]
        exact present
      · rw [Tree.number_retext, twins.contents _ present, content, Tree.content_retext]
      · intro child inside
        rw [Tree.children_retext] at inside
        obtain ⟨old, directly, rfl⟩ := List.mem_map.mp inside
        rw [Tree.number_retext, Tree.number_retext, twins.parents]
        exact linked old directly
      · intro child inside
        rw [Tree.children_retext] at inside
        obtain ⟨old, directly, rfl⟩ := List.mem_map.mp inside
        exact ih old directly

/-! ### Writing -/

theorem parent?_of_mem {below : Tree} (held : edited.Holds subtree)
    (twinHeld : twinEdited.Holds (subtree.retext other)) (within : below ∈ subtree.preorder)
    (lower : below.number ≠ subtree.number) :
    twinEdited.parent? below.number = edited.parent? below.number := by
  rcases Tree.exists_parent within with same | ⟨parent, above, directly⟩
  · exact absurd (congrArg Tree.number same) lower
  · have twinAbove : parent.retext other ∈ (subtree.retext other).preorder := by
      rw [Tree.preorder_retext]
      exact List.mem_map_of_mem above
    have twinDirectly : below.retext other ∈ (parent.retext other).children := by
      rw [Tree.children_retext]
      exact List.mem_map_of_mem directly
    have link := (twinHeld.of_mem_preorder twinAbove).linked twinDirectly
    rw [Tree.number_retext, Tree.number_retext] at link
    rw [link, (held.of_mem_preorder above).linked directly]

/-- The same change of one node, but for texts, makes twins of twins. -/
theorem editAt (twins : Twins texts document twin) (edit : EditAt document edited subtree)
    (twinEdit : EditAt twin twinEdited (subtree.retext other))
    (size : twinEdited.size = edited.size)
    (same : ∀ node < document.size, node ≠ subtree.number → other node = texts node) :
    Twins other edited twinEdited := by
  refine ⟨size, ?_, ?_⟩
  · intro node
    by_cases inside : node ∈ subtree.numbers ∧ node ≠ subtree.number
    · obtain ⟨below, within, rfl⟩ := Tree.exists_of_mem_numbers inside.1
      exact parent?_of_mem edit.held twinEdit.held within inside.2
    · have notChild : node ∉ subtree.children.map Tree.number := by
        intro isChild
        obtain ⟨child, directly, rfl⟩ := List.mem_map.mp isChild
        have within := Tree.mem_numbers_of_mem_preorder (Tree.child_mem_preorder directly)
        refine inside ⟨within, fun equal => ?_⟩
        exact edit.held.number_not_mem_child directly (equal ▸ child.number_mem_numbers)
      by_cases old : node < document.size
      · have numbers : (subtree.retext other).children.map Tree.number =
            subtree.children.map Tree.number := by
          rw [Tree.children_retext, List.map_map]
          exact List.map_congr_left fun child _ => Tree.number_retext other child
        have twinNotChild : node ∉ (subtree.retext other).children.map Tree.number := by
          rwa [numbers]
        rw [edit.links node old notChild, twinEdit.links node (twins.size.symm ▸ old) twinNotChild,
          twins.parents, Tree.number_retext]
      · by_cases present : node < edited.size
        · have within := (edit.fresh node (Nat.le_of_not_lt old) present).1
          refine absurd ⟨within, fun equal => ?_⟩ inside
          exact old (equal ▸ edit.present)
        · rw [parent?_of_size_le (Nat.le_of_not_lt present),
            parent?_of_size_le (size.symm ▸ Nat.le_of_not_lt present)]
  · intro node present
    by_cases inside : node ∈ subtree.numbers
    · obtain ⟨below, within, rfl⟩ := Tree.exists_of_mem_numbers inside
      have twinWithin : below.retext other ∈ (subtree.retext other).preorder := by
        rw [Tree.preorder_retext]
        exact List.mem_map_of_mem within
      have recorded := (twinEdit.held.of_mem_preorder twinWithin).content
      rw [Tree.number_retext, Tree.content_retext] at recorded
      rw [recorded, (edit.held.of_mem_preorder within).content]
    · have old : node < document.size := by
        by_contra new
        exact inside (edit.fresh node (Nat.le_of_not_lt new) present).1
      have apart : node ≠ subtree.number := fun equal => inside (equal ▸ subtree.number_mem_numbers)
      rw [edit.contents node old apart, twinEdit.contents node (twins.size.symm ▸ old)
        (by rwa [Tree.number_retext]), twins.contents node old, same node old apart]

end Twins

end Document

/-! ### Values that differ in texts -/

/-- The second value is the first with some texts, wherever the two are laid out. -/
structure Json.Varies (value other : Json) (texts : NodeId → NodeId → NodeId → Option String) :
    Prop where
  size : other.size = value.size
  place : ∀ number first,
    Tree.place number first other = (Tree.place number first value).retext (texts number first)

theorem Json.varies_self (value : Json) : value.Varies value fun _ _ _ => none :=
  ⟨rfl, fun _ _ => (Tree.retext_of_not_mem fun _ _ => rfl).symm⟩

theorem Json.varies_text (first second : String) :
    (Json.text first).Varies (Json.text second) fun number _ node =>
      if node = number then some second else none := by
  refine ⟨rfl, fun number place => ?_⟩
  unfold Json.text
  rw [Tree.place, Tree.place, Tree.retext, if_pos rfl]
  rfl

namespace Document

variable {texts : NodeId → Option String} {document twin edited twinEdited : Document}

def textsBehind (texts : NodeId → Option String) (document : Document) (place : NodeId)
    (written : NodeId → Option String) (node : NodeId) : Option String :=
  if node = place ∨ document.size ≤ node then written node else texts node

theorem retext_textsBehind (texts : NodeId → Option String) (document : Document)
    (varied : NodeId → NodeId → NodeId → Option String) (value : Json) (number first : NodeId)
    (beyond : document.size ≤ first) :
    (Tree.place number first value).retext (textsBehind texts document number (varied number first))
      = (Tree.place number first value).retext (varied number first) := by
  apply Tree.retext_congr
  intro node inside
  rw [Tree.numbers_place, List.mem_cons, List.mem_range'_1] at inside
  exact if_pos (inside.imp_right fun within => Nat.le_trans beyond within.1)

theorem textsBehind_of_old {written : NodeId → Option String} {place node : NodeId}
    (old : node < document.size) (apart : node ≠ place) :
    textsBehind texts document place written node = texts node :=
  if_neg (not_or.mpr ⟨apart, Nat.not_le.mpr old⟩)

namespace Twins

variable {varied : NodeId → NodeId → NodeId → Option String} {value other : Json}

theorem replaceValue (twins : Twins texts document twin) (wellFormed : document.WellFormed)
    (twinWF : twin.WellFormed) {node : NodeId} (present : node < document.size)
    (varies : value.Varies other varied) :
    Twins (textsBehind texts document node (varied node document.size))
      (document.replaceValue node value) (twin.replaceValue node other) := by
  have edit := replaceValue_editAt wellFormed present value
  have twinEdit := replaceValue_editAt twinWF (twins.size.symm ▸ present) other
  refine twins.editAt edit ?_ ?_ ?_
  · rw [retext_textsBehind texts document varied value _ _ (Nat.le_refl _), ← varies.place,
      ← twins.size]
    exact twinEdit
  · rw [size_replaceValue, size_replaceValue, twins.size, varies.size]
  · intro other old apart
    rw [Tree.number_place] at apart
    exact textsBehind_of_old old apart

theorem appendMember (twins : Twins texts document twin) (wellFormed : document.WellFormed)
    (twinWF : twin.WellFormed) {object : NodeId} {members : List (String × Tree)} {key : String}
    (holds : document.Holds (.object object members)) (varies : value.Varies other varied) :
    (document.appendMember object (members.map fun member => (member.1, member.2.number))
        key value).Holds (Tree.place document.size (document.size + 1) value) ∧
      Twins (textsBehind texts document document.size (varied document.size (document.size + 1)))
        (document.appendMember object (members.map fun member => (member.1, member.2.number))
          key value)
        (twin.appendMember object (members.map fun member => (member.1, member.2.number))
          key other) := by
  have twinHolds := twins.holds holds
  rw [Tree.retext] at twinHolds
  have sameMembers : (members.map fun member => (member.1, member.2.retext texts)).map
      (fun member => (member.1, member.2.number)) =
        members.map fun member => (member.1, member.2.number) := by
    rw [List.map_map]
    exact List.map_congr_left fun member _ =>
      congrArg (Prod.mk member.1) (Tree.number_retext texts member.2)
  have edit := appendMember_editAt wellFormed holds key value
  have twinEdit := appendMember_editAt twinWF twinHolds key other
  rw [sameMembers] at twinEdit
  constructor
  · exact holds_appendMember holds.present
  · refine twins.editAt edit ?_ ?_ ?_
    · have oldMembers : members.map (fun member => (member.1, member.2.retext texts)) =
          members.map fun member => (member.1, member.2.retext (textsBehind texts document
            document.size (varied document.size (document.size + 1)))) := by
        apply List.map_congr_left
        intro member inside
        have held := holds.of_mem_children (List.mem_map_of_mem inside)
        refine congrArg (Prod.mk member.1) (Tree.retext_congr fun node within => ?_)
        have old := held.lt_size_of_mem_numbers within
        exact (textsBehind_of_old old (Nat.ne_of_lt old)).symm
      rw [Tree.retext, List.map_append, List.map_singleton, Tree.ofJson,
        retext_textsBehind texts document varied value _ _ (Nat.le_succ _), ← varies.place,
        ← oldMembers, ← twins.size]
      exact twinEdit
    · rw [size_appendMember, size_appendMember, twins.size, varies.size]
    · intro node old _
      exact textsBehind_of_old old (Nat.ne_of_lt old)

/-- Setting a member in twins: the results are twins, and the value is laid out in them. -/
theorem setMember (twins : Twins texts document twin) (wellFormed : document.WellFormed)
    (twinWF : twin.WellFormed) {object place : NodeId} {key : String}
    (varies : value.Varies other varied)
    (done : document.setMember object key value = .ok (edited, place)) :
    ∃ twinEdited first, twin.setMember object key other = .ok (twinEdited, place) ∧
      edited.Holds (Tree.place place first value) ∧
      Twins (textsBehind texts document place (varied place first)) edited twinEdited := by
  have twinMember := twins.member? key object
  obtain ⟨found, rfl⟩ | ⟨missing, rfl, listed, recorded, rfl⟩ := setMember_cases done
  · have present := lt_size_of_parent? (wellFormed.parent?_of_member? found)
    exact ⟨_, document.size, setMember_of_some other (twinMember.trans found),
      (replaceValue_editAt wellFormed present value).held,
      twins.replaceValue wellFormed twinWF present varies⟩
  · obtain ⟨members, holds, rfl⟩ := wellFormed.exists_object recorded
    have twinRecorded : twin.content object =
        .object (members.map fun member => (member.1, member.2.number)) := by
      obtain ⟨text?, same⟩ := twins.exists_content object
      rw [same, recorded]
      rfl
    obtain ⟨held, after⟩ := twins.appendMember wellFormed twinWF holds varies
    refine ⟨_, document.size + 1, ?_, held, after⟩
    rw [setMember_of_none other (twinMember.trans missing) twinRecorded, twins.size]

theorem setMember_eq_error (twins : Twins texts document twin) {object : NodeId} {key : String}
    {error : EditError} (failed : document.setMember object key value = .error error)
    (other : Json) : twin.setMember object key other = .error error := by
  have twinMember := twins.member? key object
  obtain ⟨text?, same⟩ := twins.exists_content object
  unfold Document.setMember at failed ⊢
  rw [twinMember]
  cases found : document.member? key object with
  | some member =>
      rw [found] at failed
      cases failed
  | none =>
      rw [found] at failed
      rw [same]
      cases recorded : document.content object with
      | object members =>
          rw [recorded] at failed
          cases failed
      | scalar _ =>
          rw [recorded] at failed
          exact failed
      | array _ =>
          rw [recorded] at failed
          exact failed

end Twins

end Document

end TemplateFill
