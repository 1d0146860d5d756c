import TemplateFill.Proofs.Document.Edits

/-!
The structural edits, one by one.

What an edit can do is said once, in its `_cases` lemma, and each edit that succeeds is a change of
one node, whose new tree its `_editAt` lemma names.
-/

namespace TemplateFill

namespace Document

variable {document : Document} {tree : Tree}

/-! ### Replacing values -/

theorem replaceValue_eq (document : Document) (node : NodeId) (value : Json) :
    document.replaceValue node value =
      ((document.release (document.children node)).extend
        (layOutChildren document.size node value)).setContent node
          (contentOf document.size value) :=
  rfl

theorem size_replaceValue (node : NodeId) (value : Json) :
    (document.replaceValue node value).size = document.size + (value.size - 1) := by
  rw [replaceValue_eq, size_setContent, size_extend, size_release, length_layOutChildren]

section ReplaceValue

variable {node : NodeId} {value : Json}

theorem content_replaceValue_self (present : node < document.size) :
    (document.replaceValue node value).content node = contentOf document.size value := by
  rw [replaceValue_eq, content_setContent_self]
  rw [size_extend, size_release]
  exact Nat.lt_of_lt_of_le present (Nat.le_add_right _ _)

theorem content_replaceValue_of_ne {other : NodeId} (old : other < document.size)
    (different : other ≠ node) :
    (document.replaceValue node value).content other = document.content other := by
  rw [replaceValue_eq, content_setContent_of_ne (Ne.symm different),
    content_extend (by rwa [size_release]), content_release]

/-- The children there were lose their parent. -/
theorem WellFormed.parent?_replaceValue (wellFormed : document.WellFormed) {other : NodeId}
    (old : other < document.size) :
    (document.replaceValue node value).parent? other =
      if document.parent? other = some node then none else document.parent? other := by
  rw [replaceValue_eq, parent?_setContent, parent?_extend (by rwa [size_release])]
  by_cases child : other ∈ document.children node
  · rw [parent?_release_of_mem child, if_pos (wellFormed.child child).2.2]
  · rw [parent?_release_of_not_mem child, if_neg fun link => child (wellFormed.listed link)]

theorem lays_replaceValue (present : node < document.size) :
    (document.replaceValue node value).Lays document.size
      (layOutChildren document.size node value) := by
  intro position found there
  have apart : node ≠ document.size + position :=
    Nat.ne_of_lt (Nat.lt_of_lt_of_le present (Nat.le_add_right _ _))
  have behind := lays_extend (document.release (document.children node)) _ position found there
  rw [size_release] at behind
  rw [replaceValue_eq, nodes_setContent, if_neg apart, behind]

theorem replaceValue_editAt (wellFormed : document.WellFormed) (present : node < document.size)
    (value : Json) :
    EditAt document (document.replaceValue node value)
      (Tree.place node document.size value) := by
  have size := @size_replaceValue document node value
  have grows : document.size ≤ (document.replaceValue node value).size := by
    rw [size]
    exact Nat.le_add_right _ _
  have held : (document.replaceValue node value).Holds (Tree.place node document.size value) :=
    holds_place node document.size value (Nat.lt_of_lt_of_le present grows)
      (content_replaceValue_self present) (lays_replaceValue present)
  have nodup := Tree.nodup_numbers_place present value
  refine
    { present := by rwa [Tree.number_place]
      grows := grows
      held := held
      contents := ?_
      links := ?_
      taken := fun child inside => Or.inl (Tree.le_number_of_mem_place inside)
      apart := Tree.nodup_children nodup
      fresh := ?_ }
  · rw [Tree.number_place]
    exact fun other => content_replaceValue_of_ne
  · rw [Tree.number_place]
    exact fun other old _ => wellFormed.parent?_replaceValue old
  · intro other new bounded
    have inside : other ∈ (Tree.place node document.size value).numbers := by
      rw [Tree.numbers_place, List.mem_cons, List.mem_range'_1]
      exact Or.inr ⟨new, by rwa [size] at bounded⟩
    exact ⟨inside, held.nodup_children nodup inside⟩

end ReplaceValue

/-! ### Setting members -/

def appendMember (document : Document) (object : NodeId) (listed : List (String × NodeId))
    (key : String) (value : Json) : Document :=
  (document.insert (some object) value).1.setContent object
    (.object (listed ++ [(key, document.size)]))

theorem setMember_of_some {key : String} {object member : NodeId} (value : Json)
    (found : document.member? key object = some member) :
    document.setMember object key value = .ok (document.replaceValue member value, member) := by
  rw [setMember, found]

theorem setMember_of_none {key : String} {object : NodeId} {listed : List (String × NodeId)}
    (value : Json) (missing : document.member? key object = none)
    (recorded : document.content object = .object listed) :
    document.setMember object key value =
      .ok (document.appendMember object listed key value, document.size) := by
  rw [setMember, missing, recorded]
  rfl

/-- A member that is set is overwritten where it stands, or is a new one, which comes last. -/
theorem setMember_cases {key : String} {object member : NodeId} {value : Json} {edited : Document}
    (done : document.setMember object key value = .ok (edited, member)) :
    document.member? key object = some member ∧ edited = document.replaceValue member value ∨
      document.member? key object = none ∧ member = document.size ∧
        ∃ listed, document.content object = .object listed ∧
          edited = document.appendMember object listed key value := by
  cases found : document.member? key object with
  | some existing =>
      rw [setMember_of_some value found] at done
      cases done
      exact Or.inl ⟨rfl, rfl⟩
  | none =>
      cases recorded : document.content object with
      | object listed =>
          rw [setMember_of_none value found recorded] at done
          cases done
          exact Or.inr ⟨rfl, rfl, listed, rfl, rfl⟩
      | _ =>
          rw [setMember, found, recorded] at done
          cases done

section AppendMember

variable {object : NodeId} {listed : List (String × NodeId)} {key : String} {value : Json}

@[simp] theorem size_appendMember :
    (document.appendMember object listed key value).size = document.size + value.size := by
  rw [appendMember, size_setContent, size_insert]

theorem content_appendMember_self (present : object < document.size) :
    (document.appendMember object listed key value).content object =
      .object (listed ++ [(key, document.size)]) := by
  rw [appendMember, content_setContent_self]
  rw [size_insert]
  exact Nat.lt_of_lt_of_le present (Nat.le_add_right _ _)

theorem content_appendMember_of_ne {node : NodeId} (old : node < document.size)
    (different : node ≠ object) :
    (document.appendMember object listed key value).content node = document.content node := by
  rw [appendMember, content_setContent_of_ne (Ne.symm different)]
  exact content_extend old

theorem parent?_appendMember {node : NodeId} (old : node < document.size) :
    (document.appendMember object listed key value).parent? node = document.parent? node := by
  rw [appendMember, parent?_setContent]
  exact parent?_extend old

theorem parent?_appendMember_size :
    (document.appendMember object listed key value).parent? document.size = some object := by
  rw [appendMember, parent?_setContent]
  exact (holds_insert document (some object) value).2

theorem holds_appendMember (present : object < document.size) :
    (document.appendMember object listed key value).Holds (Tree.ofJson document.size value) := by
  refine (holds_insert document (some object) value).1.transfer
    (Nat.le_of_eq (size_setContent ..).symm) ?_ ?_
  · intro node inside
    have behind := (Tree.mem_numbers_ofJson.mp inside).1
    exact content_setContent_of_ne (Nat.ne_of_lt (Nat.lt_of_lt_of_le present behind)) _
  · intro node parent above _
    rwa [appendMember, parent?_setContent]

theorem appendMember_editAt (wellFormed : document.WellFormed) {members : List (String × Tree)}
    (holds : document.Holds (.object object members)) (key : String) (value : Json) :
    EditAt document
      (document.appendMember object (members.map fun member => (member.1, member.2.number))
        key value)
      (.object object (members ++ [(key, Tree.ofJson document.size value)])) := by
  have present : object < document.size := holds.present
  have grows : document.size ≤ (document.appendMember object
      (members.map fun member => (member.1, member.2.number)) key value).size := by
    rw [size_appendMember]
    exact Nat.le_add_right _ _
  have newHeld : (document.appendMember object
      (members.map fun member => (member.1, member.2.number)) key value).Holds
      (Tree.ofJson document.size value) := holds_appendMember present
  have children : (Tree.object object
      (members ++ [(key, Tree.ofJson document.size value)])).children =
      (Tree.object object members).children ++ [Tree.ofJson document.size value] :=
    List.map_append
  have childOf : ∀ child ∈ (Tree.object object
      (members ++ [(key, Tree.ofJson document.size value)])).children,
      child ∈ (Tree.object object members).children ∨ child = Tree.ofJson document.size value := by
    intro child inside
    rwa [children, List.mem_append, List.mem_singleton] at inside
  refine
    { present := present
      grows := grows
      held := .intro (Nat.lt_of_lt_of_le present grows) ?_ ?_ ?_
      contents := fun _ => content_appendMember_of_ne
      links := ?_
      taken := ?_
      apart := ?_
      fresh := ?_ }
  · refine (content_appendMember_self present).trans ?_
    rw [Tree.content, List.map_append]
    simp only [List.map_cons, List.map_nil, Tree.number_ofJson]
  · intro child inside
    rcases childOf child inside with old | rfl
    · rw [parent?_appendMember (holds.of_mem_children old).present]
      exact holds.linked old
    · rw [Tree.number_ofJson]
      exact parent?_appendMember_size
  · intro child inside
    rcases childOf child inside with old | rfl
    · refine (holds.of_mem_children old).transfer_of_not_mem grows (holds.number_not_mem_child old)
        (fun _ => content_appendMember_of_ne) fun other parent above _ => ?_
      rw [parent?_appendMember (lt_size_of_parent? above), above]
    · exact newHeld
  · intro other old outside
    rw [children, List.map_append, List.mem_append, not_or] at outside
    rw [parent?_appendMember old]
    exact (if_neg fun above => outside.1 (wellFormed.mem_children holds above)).symm
  · intro child inside
    rcases childOf child inside with old | rfl
    · exact Or.inr ⟨wellFormed.ne_root (holds.linked old), Or.inl (holds.linked old)⟩
    · exact Or.inl (Nat.le_of_eq (Tree.number_ofJson ..).symm)
  · rw [children, List.map_append, List.nodup_append]
    refine ⟨wellFormed.nodup_children holds, List.nodup_singleton _, ?_⟩
    intro left inLeft right inRight
    obtain ⟨child, old, rfl⟩ := List.mem_map.mp inLeft
    rw [List.map_singleton, List.mem_singleton, Tree.number_ofJson] at inRight
    rw [inRight]
    exact Nat.ne_of_lt (holds.of_mem_children old).present
  · intro other new bounded
    rw [size_appendMember] at bounded
    have inside := Tree.mem_numbers_ofJson.mpr ⟨new, bounded⟩
    refine ⟨Tree.mem_numbers_iff.mpr (Or.inr ⟨_, ?_, inside⟩),
      newHeld.nodup_children (Tree.nodup_numbers_ofJson ..) inside⟩
    rw [children]
    exact List.mem_append_right _ (List.mem_singleton.mpr rfl)

end AppendMember

/-! ### Removing nodes -/

theorem content_filterChildren (child : NodeId) (tree : Tree) :
    (tree.filterChildren fun other => other.number != child).content =
      dropChild child tree.content := by
  cases tree with
  | scalar number value => rfl
  | array number elements =>
      simp only [Tree.filterChildren, Tree.content, dropChild, List.filter_map, Function.comp_def]
  | object number members =>
      simp only [Tree.filterChildren, Tree.content, dropChild, List.filter_map, Function.comp_def]

theorem removeNode_of_none {node : NodeId} (detached : document.parent? node = none) :
    document.removeNode node = document := by
  rw [removeNode, detached]

theorem removeNode_of_some {node parent : NodeId} (link : document.parent? node = some parent) :
    document.removeNode node =
      (document.setContent parent (dropChild node (document.content parent))).setParent node none := by
  rw [removeNode, link]

@[simp] theorem size_removeNode (document : Document) (node : NodeId) :
    (document.removeNode node).size = document.size := by
  cases link : document.parent? node with
  | none => rw [removeNode_of_none link]
  | some parent => rw [removeNode_of_some link, size_setParent, size_setContent]

theorem parent?_removeNode_self (node : NodeId) : (document.removeNode node).parent? node = none := by
  cases link : document.parent? node with
  | none => rw [removeNode_of_none link, link]
  | some parent =>
      rw [removeNode_of_some link,
        parent?_setParent_self (by rw [size_setContent]; exact lt_size_of_parent? link)]

theorem parent?_removeNode_of_ne {node other : NodeId} (different : other ≠ node) :
    (document.removeNode node).parent? other = document.parent? other := by
  cases link : document.parent? node with
  | none => rw [removeNode_of_none link]
  | some parent =>
      rw [removeNode_of_some link, parent?_setParent_of_ne (Ne.symm different), parent?_setContent]

theorem content_removeNode_self {node parent : NodeId} (link : document.parent? node = some parent)
    (present : parent < document.size) :
    (document.removeNode node).content parent = dropChild node (document.content parent) := by
  rw [removeNode_of_some link, content_setParent, content_setContent_self present]

theorem content_removeNode_of_ne {node parent other : NodeId}
    (link : document.parent? node = some parent) (different : other ≠ parent) :
    (document.removeNode node).content other = document.content other := by
  rw [removeNode_of_some link, content_setParent, content_setContent_of_ne (Ne.symm different)]

theorem removeNode_editAt (wellFormed : document.WellFormed) (holds : document.Holds tree)
    {child : Tree} (inside : child ∈ tree.children) :
    EditAt document (document.removeNode child.number)
      (tree.filterChildren fun other => other.number != child.number) := by
  have link := holds.linked inside
  have size := size_removeNode document child.number
  have kept : ∀ other ∈ (tree.filterChildren fun other => other.number != child.number).children,
      other ∈ tree.children ∧ other.number ≠ child.number := by
    intro other within
    rw [Tree.children_filterChildren, List.mem_filter, bne_iff_ne] at within
    exact within
  refine
    { present := by rw [Tree.number_filterChildren]; exact holds.present
      grows := Nat.le_of_eq size.symm
      held := ?_
      contents := ?_
      links := ?_
      taken := ?_
      apart := ?_
      fresh := fun other new bounded => absurd bounded (by rw [size]; exact Nat.not_lt.mpr new) }
  · refine .intro ?_ ?_ ?_ ?_
    · rw [Tree.number_filterChildren, size]
      exact holds.present
    · rw [Tree.number_filterChildren, content_filterChildren,
        content_removeNode_self link holds.present, holds.content]
    · intro other within
      obtain ⟨old, different⟩ := kept other within
      rw [Tree.number_filterChildren, parent?_removeNode_of_ne different]
      exact holds.linked old
    · intro other within
      obtain ⟨old, _⟩ := kept other within
      refine (holds.of_mem_children old).transfer_of_not_mem (Nat.le_of_eq size.symm)
        (holds.number_not_mem_child old) (fun _ _ => content_removeNode_of_ne link) ?_
      intro node parent above different
      have apart : node ≠ child.number := by
        rintro rfl
        rw [link] at above
        exact different (Option.some.inj above).symm
      rw [parent?_removeNode_of_ne apart, above]
  · rw [Tree.number_filterChildren]
    exact fun other _ => content_removeNode_of_ne link
  · intro other _ outside
    rw [Tree.number_filterChildren]
    by_cases same : other = child.number
    · rw [same, parent?_removeNode_self, link, if_pos rfl]
    · rw [parent?_removeNode_of_ne same]
      refine (if_neg fun above => outside ?_).symm
      obtain ⟨sibling, old, rfl⟩ := wellFormed.exists_child holds above
      rw [Tree.children_filterChildren]
      exact List.mem_map_of_mem (List.mem_filter.mpr ⟨old, bne_iff_ne.mpr same⟩)
  · intro other within
    have above := holds.linked (kept other within).1
    rw [Tree.number_filterChildren]
    exact Or.inr ⟨wellFormed.ne_root above, Or.inl above⟩
  · rw [Tree.children_filterChildren]
    exact (wellFormed.nodup_children holds).sublist (List.filter_sublist.map _)

theorem WellFormed.removeNode (wellFormed : document.WellFormed) (node : NodeId) :
    (document.removeNode node).WellFormed := by
  cases link : document.parent? node with
  | none => rwa [removeNode_of_none link]
  | some parent =>
      obtain ⟨tree, child, holds, inside, rfl, rfl⟩ := wellFormed.exists_above link
      exact (removeNode_editAt wellFormed holds inside).wellFormed wellFormed

/-! ### Appending nodes -/

def appendElement (document : Document) (array : NodeId) (listed : List NodeId) (child : NodeId) :
    Document :=
  (document.setContent array (.array (listed ++ [child]))).setParent child (some array)

theorem appendChild_eq {array child : NodeId} {listed : List NodeId}
    (detached : document.parent? child = none) (other : child ≠ root)
    (recorded : document.content array = .array listed) :
    document.appendChild array child = .ok (document.appendElement array listed child) := by
  have free : ((document.parent? child).isSome || decide (child = root)) = false := by
    rw [detached, decide_eq_false other]
    rfl
  rw [appendChild, if_neg (by rw [free]; exact Bool.false_ne_true), recorded]
  rfl

/-- Only a node without a parent is appended, never the root, and only to an array. -/
theorem appendChild_cases {array child : NodeId} {edited : Document}
    (done : document.appendChild array child = .ok edited) :
    document.parent? child = none ∧ child ≠ root ∧
      ∃ listed, document.content array = .array listed ∧
        edited = document.appendElement array listed child := by
  rw [appendChild] at done
  split at done
  · cases done
  · rename_i free
    rw [Bool.not_eq_true, Bool.or_eq_false_iff, Option.isSome_eq_false_iff,
      Option.isNone_iff_eq_none, decide_eq_false_iff_not] at free
    split at done
    · rename_i listed recorded
      cases done
      exact ⟨free.1, free.2, listed, recorded, rfl⟩
    · cases done

section AppendElement

variable {array child : NodeId} {listed : List NodeId}

@[simp] theorem size_appendElement :
    (document.appendElement array listed child).size = document.size := by
  rw [appendElement, size_setParent, size_setContent]

theorem content_appendElement_self (present : array < document.size) :
    (document.appendElement array listed child).content array = .array (listed ++ [child]) := by
  rw [appendElement, content_setParent, content_setContent_self present]

theorem content_appendElement_of_ne {node : NodeId} (different : node ≠ array) :
    (document.appendElement array listed child).content node = document.content node := by
  rw [appendElement, content_setParent, content_setContent_of_ne (Ne.symm different)]

theorem parent?_appendElement_self (given : child < document.size) :
    (document.appendElement array listed child).parent? child = some array := by
  rw [appendElement, parent?_setParent_self (by rwa [size_setContent])]

theorem parent?_appendElement_of_ne {node : NodeId} (different : node ≠ child) :
    (document.appendElement array listed child).parent? node = document.parent? node := by
  rw [appendElement, parent?_setParent_of_ne (Ne.symm different), parent?_setContent]

theorem parent?_appendElement (detached : document.parent? child = none) {node parent : NodeId}
    (link : document.parent? node = some parent) :
    (document.appendElement array listed child).parent? node = some parent := by
  rw [parent?_appendElement_of_ne, link]
  rintro rfl
  rw [detached] at link
  cases link

end AppendElement

theorem appendChild_editAt (wellFormed : document.WellFormed) {array : NodeId}
    {elements : List Tree} (holds : document.Holds (.array array elements)) {child : Tree}
    (held : document.Holds child) (detached : document.parent? child.number = none)
    (other : child.number ≠ root) (outside : array ∉ child.numbers) :
    EditAt document (document.appendElement array (elements.map Tree.number) child.number)
      (.array array (elements ++ [child])) := by
  have present : array < document.size := holds.present
  have grows : document.size ≤
      (document.appendElement array (elements.map Tree.number) child.number).size :=
    Nat.le_of_eq size_appendElement.symm
  have kept : ∀ tree, document.Holds tree → array ∉ tree.numbers →
      (document.appendElement array (elements.map Tree.number) child.number).Holds tree :=
    fun tree held apart =>
      held.transfer_of_not_mem grows apart (fun _ _ => content_appendElement_of_ne)
        fun _ _ above _ => parent?_appendElement detached above
  refine
    { present := present
      grows := grows
      held := .intro (Nat.lt_of_lt_of_le present grows) ?_ ?_ ?_
      contents := fun _ _ => content_appendElement_of_ne
      links := ?_
      taken := ?_
      apart := ?_
      fresh := fun node new bounded =>
        absurd bounded (by rw [size_appendElement]; exact Nat.not_lt.mpr new) }
  · refine (content_appendElement_self present).trans ?_
    rw [Tree.content, List.map_append, List.map_singleton]
  · intro element inside
    rcases List.mem_append.mp inside with old | new
    · exact parent?_appendElement detached (holds.linked old)
    · rw [List.mem_singleton.mp new]
      exact parent?_appendElement_self held.present
  · intro element inside
    rcases List.mem_append.mp inside with old | new
    · exact kept element (holds.of_mem_children old) (holds.number_not_mem_child old)
    · rw [List.mem_singleton.mp new]
      exact kept child held outside
  · intro node _ apart
    rw [Tree.children, List.map_append, List.mem_append, not_or, List.map_singleton,
      List.mem_singleton] at apart
    rw [parent?_appendElement_of_ne apart.2]
    exact (if_neg fun above => apart.1 (wellFormed.mem_children holds above)).symm
  · intro element inside
    rcases List.mem_append.mp inside with old | new
    · exact Or.inr ⟨wellFormed.ne_root (holds.linked old), Or.inl (holds.linked old)⟩
    · rw [List.mem_singleton.mp new]
      exact Or.inr ⟨other, Or.inr detached⟩
  · rw [Tree.children, List.map_append, List.nodup_append]
    refine ⟨wellFormed.nodup_children holds, List.nodup_singleton _, ?_⟩
    intro left inLeft right inRight
    obtain ⟨element, old, rfl⟩ := List.mem_map.mp inLeft
    rw [List.map_singleton, List.mem_singleton] at inRight
    rw [inRight]
    intro equal
    have above := holds.linked old
    rw [equal, detached] at above
    cases above

/-- Appending a node that is not the array and does not lie above it is a change of the array. -/
theorem WellFormed.exists_editAt_appendChild {edited : Document} (wellFormed : document.WellFormed)
    {array child : NodeId} (given : child < document.size)
    (noLoop : ∀ levels, document.ancestor? array levels ≠ some child)
    (done : document.appendChild array child = .ok edited) :
    ∃ elements below, document.Holds (.array array elements) ∧ document.Holds below ∧
      below.number = child ∧ EditAt document edited (.array array (elements ++ [below])) := by
  obtain ⟨detached, other, listed, recorded, rfl⟩ := appendChild_cases done
  obtain ⟨elements, holds, rfl⟩ := wellFormed.exists_array recorded
  obtain ⟨below, rfl, held⟩ := wellFormed.grounded given
  refine ⟨elements, below, holds, held, rfl,
    appendChild_editAt wellFormed holds held detached other fun inside => ?_⟩
  obtain ⟨levels, found⟩ := held.ancestor? inside
  exact noLoop levels found

/-! ### Renaming members -/

theorem renameMember_map {α β : Type} (before after : String) (change : α → β)
    (members : List (String × α)) :
    renameMember before after (members.map fun member => (member.1, change member.2)) =
      (renameMember before after members).map fun member => (member.1, change member.2) := by
  induction members with
  | nil => rfl
  | cons member rest ih =>
      simp only [List.map_cons, renameMember]
      split
      · rfl
      · rw [List.map_cons, ih]

theorem map_snd_renameMember {α : Type} (before after : String) (members : List (String × α)) :
    (renameMember before after members).map Prod.snd = members.map Prod.snd := by
  induction members with
  | nil => rfl
  | cons member rest ih =>
      rw [renameMember]
      split
      · rfl
      · rw [List.map_cons, ih, List.map_cons]

theorem renameMember_self {α : Type} (key : String) (members : List (String × α)) :
    renameMember key key members = members := by
  induction members with
  | nil => rfl
  | cons member rest ih =>
      obtain ⟨name, first⟩ := member
      rw [renameMember, ih]
      split
      · rename_i same
        rw [same]
      · rfl

theorem renameMember_of_none {α : Type} {before : String} {members : List (String × α)}
    (after : String) (missing : memberOf? before members = none) :
    renameMember before after members = members := by
  induction members with
  | nil => rfl
  | cons member rest ih =>
      obtain ⟨name, first⟩ := member
      rw [memberOf?] at missing
      rw [renameMember]
      split at missing
      · cases missing
      · rename_i different
        rw [if_neg different, ih missing]

theorem renameMember_eq_self {α : Type} {before after : String} {members : List (String × α)}
    (idle : before = after ∨ memberOf? before members = none) :
    renameMember before after members = members := by
  rcases idle with rfl | missing
  · exact renameMember_self before members
  · exact renameMember_of_none after missing

/-- A key is renamed in its place, to one that no member has. Nothing changes if it is missing, or
the new key is the old one. -/
theorem renameKey_cases {object : NodeId} {before after : String} {present : Bool}
    {edited : Document} (done : document.renameKey object before after = .ok (edited, present)) :
    ∃ listed, document.content object = .object listed ∧
      present = (memberOf? before listed).isSome ∧
        (edited = document ∧ (before = after ∨ memberOf? before listed = none) ∨
          memberOf? after listed = none ∧
            edited = document.setContent object (.object (renameMember before after listed))) := by
  rw [renameKey] at done
  split at done
  · rename_i listed recorded
    refine ⟨listed, recorded, ?_⟩
    dsimp only at done
    split at done
    · rename_i same
      cases done
      exact ⟨rfl, Or.inl ⟨rfl, Or.inl same⟩⟩
    · split at done
      · cases done
      · rename_i free
        rw [Bool.not_eq_true, Option.isSome_eq_false_iff, Option.isNone_iff_eq_none] at free
        split at done
        · rename_i found
          cases done
          exact ⟨found.symm, Or.inr ⟨free, rfl⟩⟩
        · rename_i missing
          cases done
          rw [Bool.not_eq_true] at missing
          refine ⟨missing.symm, Or.inl ⟨rfl, Or.inr ?_⟩⟩
          rwa [Option.isSome_eq_false_iff, Option.isNone_iff_eq_none] at missing
  · cases done

theorem renameMember_editAt (wellFormed : document.WellFormed) {object : NodeId}
    {members : List (String × Tree)} (holds : document.Holds (.object object members))
    (before after : String) :
    EditAt document
      (document.setContent object
        (.object (renameMember before after (members.map fun member =>
          (member.1, member.2.number)))))
      (.object object (renameMember before after members)) := by
  have present : object < document.size := holds.present
  have children : (Tree.object object (renameMember before after members)).children =
      (Tree.object object members).children := map_snd_renameMember before after members
  have grows := Nat.le_of_eq (size_setContent document object
    (.object (renameMember before after (members.map fun member =>
      (member.1, member.2.number))))).symm
  refine
    { present := present
      grows := grows
      held := .intro (Nat.lt_of_lt_of_le present grows) ?_ ?_ ?_
      contents := fun node _ different => content_setContent_of_ne (Ne.symm different) _
      links := ?_
      taken := ?_
      apart := by
        rw [children]
        exact wellFormed.nodup_children holds
      fresh := fun node new bounded =>
        absurd bounded (by rw [size_setContent]; exact Nat.not_lt.mpr new) }
  · exact (content_setContent_self present _).trans
      (congrArg Content.object (renameMember_map before after Tree.number members))
  · intro child inside
    rw [children] at inside
    rw [parent?_setContent]
    exact holds.linked inside
  · intro child inside
    rw [children] at inside
    refine (holds.of_mem_children inside).transfer_of_not_mem grows
      (holds.number_not_mem_child inside)
      (fun node _ different => content_setContent_of_ne (Ne.symm different) _) ?_
    intro node parent above _
    rwa [parent?_setContent]
  · intro node _ outside
    rw [children] at outside
    rw [parent?_setContent]
    exact (if_neg fun above => outside (wellFormed.mem_children holds above)).symm
  · intro child inside
    rw [children] at inside
    exact Or.inr ⟨wellFormed.ne_root (holds.linked inside), Or.inl (holds.linked inside)⟩

end Document

end TemplateFill
